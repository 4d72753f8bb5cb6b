import Handoff.Text.Numeral
import Handoff.Text.Quoted
import Handoff.Lock.Primitive

/-!
# What a benchmark is asked to do

In a benchmark a number of threads add one to a counter, each a number of times. The counter is a
word, so a configuration is acceptable only if there is a thread and the product of the two numbers
fits a word.
-/

namespace Handoff.Bench

/-- A number that is asked for. -/
inductive Quantity
  | threadCount
  | incrementCount
deriving Repr, DecidableEq

/-- What a number is called. -/
def Quantity.name : Quantity → String
  | .threadCount => "thread count"
  | .incrementCount => "increment count"

/-- Why a benchmark fails. -/
inductive BenchError
  /-- No kind of lock is given; the known ones. -/
  | missingPrimitive (known : String)
  /-- What is given names no kind of lock; the known ones. -/
  | unknownPrimitive (given known : String)
  /-- What is given for a number is no numeral. -/
  | invalidNumber (what : Quantity) (given : String) (source : NumeralError)
  | zeroThreads
  /-- The product of the numbers does not fit the counter. -/
  | tooManyIncrements (threads increments : UInt64)
  /-- The counter is not what it has to be in the end. -/
  | counterMismatch (actual expected : UInt64)
  | workerPanicked
deriving Repr, DecidableEq

namespace BenchError

/-- The text of an error. -/
def message : BenchError → String
  | .missingPrimitive known => "no primitive supplied, use one of " ++ known
  | .unknownPrimitive given known =>
    "unknown primitive `" ++ given ++ "', use one of " ++ known
  | .invalidNumber what given _ => "invalid " ++ what.name ++ " `" ++ given ++ "'"
  | .zeroThreads => "at least one thread is needed"
  | .tooManyIncrements threads increments =>
    toString threads.toNat ++ " threads x " ++ toString increments.toNat ++
      " increments don't fit the counter"
  | .counterMismatch actual expected =>
    "counter is " ++ toString actual.toNat ++ ", expected " ++ toString expected.toNat
  | .workerPanicked => "a worker thread panicked"

/-- The error that lies behind an error. -/
def source : BenchError → Option NumeralError
  | .invalidNumber _ _ source => some source
  | _ => none

/-- The name of the kind of an error. -/
def kind : BenchError → String
  | .missingPrimitive _ => "MissingPrimitive"
  | .unknownPrimitive _ _ => "UnknownPrimitive"
  | .invalidNumber _ _ _ => "InvalidNumber"
  | .zeroThreads => "ZeroThreads"
  | .tooManyIncrements _ _ => "TooManyIncrements"
  | .counterMismatch _ _ => "CounterMismatch"
  | .workerPanicked => "WorkerPanicked"

/-- Named fields between braces. -/
def fields (list : List (String × String)) : String :=
  " \x7b " ++ ", ".intercalate (list.map fun (name, value) => name ++ ": " ++ value) ++ " \x7d"

/-- An error as a value: its kind and all that it carries. -/
def debug (e : BenchError) : String :=
  e.kind ++
    match e with
    | .missingPrimitive known => "(" ++ Text.quote known ++ ")"
    | .unknownPrimitive given known =>
      fields [("given", Text.quote given), ("known", Text.quote known)]
    | .invalidNumber what given source =>
      fields [("what", Text.quote what.name), ("given", Text.quote given),
        ("source", "ParseIntError" ++ fields [("kind", source.kind)])]
    | .tooManyIncrements threads increments =>
      fields [("threads", toString threads.toNat), ("increments", toString increments.toNat)]
    | .counterMismatch actual expected =>
      fields [("actual", toString actual.toNat), ("expected", toString expected.toNat)]
    | .zeroThreads | .workerPanicked => ""

end BenchError

/-- What a benchmark is asked to do. -/
structure Config where
  threads : UInt64
  /-- The number of increments of each thread. -/
  increments : UInt64
deriving Repr, DecidableEq

namespace Config

/-- What a benchmark does if nothing is said. -/
def standard : Config := ⟨4, 100000⟩

/-- The counter in the end, `none` if it does not fit a word. -/
def expected (c : Config) : Option UInt64 :=
  Word.mul? c.threads c.increments

/-- The counter in the end, if the configuration is acceptable. -/
def validate (c : Config) : Except BenchError UInt64 :=
  if c.threads = 0 then .error .zeroThreads
  else
    match c.expected with
    | none => .error (.tooManyIncrements c.threads c.increments)
    | some counter => .ok counter

/-- An acceptable configuration has a thread, and the exact product is the counter in the end. -/
theorem validate_eq_ok_iff {c : Config} {counter : UInt64} :
    c.validate = .ok counter ↔
      c.threads ≠ 0 ∧ counter.toNat = c.threads.toNat * c.increments.toNat := by
  unfold validate expected
  rw [← Word.mul?_eq_some_iff]
  split
  · next h => simp [h]
  · next h => split <;> simp_all

end Config

end Handoff.Bench
