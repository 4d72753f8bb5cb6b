import Handoff.Bench.Args
import Handoff.Bench.Run

/-!
# The command line

The program reads its arguments, runs the benchmark, and reports on the error channel only: the log
records that the filter lets through, and last, if something went wrong, a line with the error,
which no filter holds back. What the language says on its own of a panic or an abort is not part of
that.
-/

namespace Handoff.Cli

/-- What the program leaves behind. -/
structure Output where
  exitCode : UInt8
  stderr : List String
deriving Repr, DecidableEq

/-- The filter if none is given. -/
def standardFilter : LogFilter := some .info

/-- The line that reports an error. -/
def errorLine (error : Bench.BenchError) : String := "Error: " ++ error.debug

/-- The last record of a benchmark that went well; `elapsed` says how long it took. -/
def resultRecord (report : Bench.Report) (expected : UInt64) (elapsed : String) : LogRecord :=
  ⟨.info, "locks_n_rings", report.primitive.name ++ " finished in " ++ elapsed ++ ", counter = " ++
    toString report.counter.toNat ++ " (expected " ++ toString expected.toNat ++ ")"⟩

/-- Runs the program with the given arguments. `launch` says whether the workers of the benchmark
are started and what they do, and `elapsed` how long it took. -/
def run (args : List String) (filter : LogFilter)
    (launch : Primitive → Bench.Config → Bench.Launch) (elapsed : String) : Output :=
  match Bench.parseArgs args with
  | .error error => ⟨1, [errorLine error]⟩
  | .ok (primitive, config) =>
    match config.validate with
    | .error error => ⟨1, [errorLine error]⟩
    | .ok expected =>
      match Bench.run primitive config fun _ => launch primitive config with
      | (log, .finished report) =>
        ⟨0, LogRecord.lines filter (log ++ [resultRecord report expected elapsed])⟩
      | (log, .failed error) => ⟨1, LogRecord.lines filter log ++ [errorLine error]⟩
      | (log, .panicked) => ⟨101, LogRecord.lines filter log⟩
      | (log, .notStarted why) => ⟨why.exitCode, LogRecord.lines filter log⟩

end Handoff.Cli
