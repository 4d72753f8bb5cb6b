import Handoff.Bench.Config

/-!
# The arguments of a benchmark

The arguments are the name of a kind of lock and, optionally, the number of threads and the number
of increments of each; further arguments are ignored. They are read from the left, so the first
thing wrong is reported, and the configuration is checked last.
-/

namespace Handoff.Bench

/-- The number that an argument stands for. -/
def readNumber (what : Quantity) (given : String) : Except BenchError UInt64 :=
  (Numeral.read given).mapError (.invalidNumber what given)

/-- The number that an optional argument stands for. -/
def readOptional (what : Quantity) (standard : UInt64) : Option String → Except BenchError UInt64
  | none => .ok standard
  | some given => readNumber what given

/-- The kind of lock that the first argument names. -/
def readPrimitive : Option String → Except BenchError Primitive
  | none => .error (.missingPrimitive Primitive.known)
  | some given =>
    match Primitive.ofName? given with
    | none => .error (.unknownPrimitive given Primitive.known)
    | some primitive => .ok primitive

/-- Reads the arguments of a benchmark. -/
def parseArgs (args : List String) : Except BenchError (Primitive × Config) := do
  let primitive ← readPrimitive args[0]?
  let threads ← readOptional .threadCount Config.standard.threads args[1]?
  let increments ← readOptional .incrementCount Config.standard.increments args[2]?
  let config : Config := ⟨threads, increments⟩
  let _ ← config.validate
  return (primitive, config)

end Handoff.Bench
