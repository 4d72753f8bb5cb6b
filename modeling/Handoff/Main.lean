import Handoff.Cli
import Handoff.Text.Elapsed

/-!
# The program

Reads the arguments and the log filter from the environment, and writes what `Cli.run` says.
-/

open Handoff in
/-- The entry point. The workers of the benchmark run one after the other. -/
def main (args : List String) : IO UInt32 := do
  let filter :=
    match ← IO.getEnv "RUST_LOG" with
    | none => Cli.standardFilter
    | some name => (LogFilter.ofName? name).getD none
  let started ← IO.monoNanosNow
  let launch ←
    match Bench.parseArgs args with
    -- nobody asks the system for anything
    | .error _ => pure .memoryRefused
    | .ok (primitive, config) =>
      if config.handlesFit then IO.lazyPure fun _ => Bench.launchInTurn primitive config
      else pure .memoryRefused
  let ended ← IO.monoNanosNow
  let output := Cli.run args filter (fun _ _ => launch) (Span.text ⟨ended - started⟩)
  let stderr ← IO.getStderr
  for line in output.stderr do
    stderr.putStrLn line
  return output.exitCode.toUInt32
