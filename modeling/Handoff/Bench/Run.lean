import Handoff.Bench.Config
import Handoff.Log

/-!
# Running a benchmark

A benchmark starts its workers, waits for them, and compares the counter with what it has to be.
What the workers do is an `Execution`: how each of them ended, in which order those that completed
said so, and the counter. `Bench.run` draws its conclusion from any execution; `Bench.execute` is
the one in which the workers run one after the other.

Not every acceptable configuration can be run. Memory for the handles of all workers is reserved
before the first one is started, and if the handles would be too large for any memory, the benchmark
panics then. Whether there is so much memory, and whether every thread can be had, is up to the
system (`Bench.Launch`).

The workers are joined in order until one turns out to have panicked. A worker that panicked and was
never joined makes the joining thread itself panic.
-/

namespace Handoff.Bench

/-- How a worker ended. -/
inductive WorkerEnd
  | completed
  | panicked
deriving Repr, DecidableEq

/-- What the workers of a benchmark did that were started. -/
structure Execution where
  /-- How each worker ended, by number. -/
  ends : List WorkerEnd
  /-- The workers that completed, in the order in which they said so. -/
  completed : List Nat
  counter : UInt64
deriving Repr, DecidableEq

/-- How the system answers when the workers of a benchmark are to be started. -/
inductive Launch
  /-- All workers were started; what they did. -/
  | complete (x : Execution)
  /-- A thread was refused; what the workers did that had been started before, and why it was. -/
  | threadRefused (x : Execution) (error : String)
  /-- The memory for the handles was refused. -/
  | memoryRefused
deriving Repr, DecidableEq

/-- Why not all workers of a benchmark are started. -/
inductive StartFailure
  /-- Their handles are too large for any memory. -/
  | tooManyHandles
  | memoryRefused (bytes : Nat)
  | threadRefused (error : String)
deriving Repr, DecidableEq

namespace StartFailure

/-- The text of a failure. -/
def message : StartFailure → String
  | .tooManyHandles => "capacity overflow"
  | .memoryRefused bytes => "memory allocation of " ++ toString bytes ++ " bytes failed"
  | .threadRefused error => "failed to spawn thread: " ++ error

/-- The exit code of a program that ends by a failure. It panics, unless memory was refused: then it
is aborted by a signal, which a shell tells by this code. -/
def exitCode : StartFailure → UInt8
  | .tooManyHandles | .threadRefused _ => 101
  | .memoryRefused _ => 134

end StartFailure

/-- What a benchmark found. -/
structure Report where
  primitive : Primitive
  counter : UInt64
deriving Repr, DecidableEq

/-- How a part of a benchmark ended. -/
inductive Outcome (ρ : Type)
  | finished (result : ρ)
  | failed (error : BenchError)
  /-- It panicked itself, because of a worker that panicked and was not joined. -/
  | panicked
  | notStarted (why : StartFailure)
deriving Repr, DecidableEq

/-! ### Joining the workers -/

/-- Joins workers in order up to the first that panicked: whether there is none, and the workers
that are not joined. -/
def joinInOrder : List WorkerEnd → Bool × List WorkerEnd
  | [] => (true, [])
  | .completed :: rest => joinInOrder rest
  | .panicked :: rest => (false, rest)

/-- Waits for the workers. -/
def joinWorkers (ends : List WorkerEnd) : Outcome Unit :=
  let (allCompleted, unjoined) := joinInOrder ends
  if unjoined.contains .panicked then .panicked
  else if allCompleted then .finished ()
  else .failed .workerPanicked

/-! ### The log -/

/-- The part of the program that reports on the workers. -/
def target : String := "locks_n_rings::bench"

/-- The record with which a benchmark starts. -/
def startRecord (primitive : Primitive) (config : Config) : LogRecord :=
  ⟨.info, target, "starting " ++ primitive.name ++ " benchmark: " ++
    toString config.threads.toNat ++ " threads x " ++ toString config.increments.toNat ++
    " increments"⟩

/-- The record of a worker that completed. -/
def workerRecord (worker : Nat) : LogRecord :=
  ⟨.debug, target, "thread " ++ toString worker ++ " completed"⟩

/-! ### The benchmark -/

/-- What a benchmark concludes from an execution of its workers. -/
def conclude (primitive : Primitive) (expected : UInt64) (x : Execution) : Outcome Report :=
  match joinWorkers x.ends with
  | .panicked => .panicked
  | .failed error => .failed error
  | .notStarted why => .notStarted why
  | .finished () =>
    if x.counter = expected then .finished ⟨primitive, x.counter⟩
    else .failed (.counterMismatch x.counter expected)

/-- The size of a handle by which a worker is joined, in bytes. -/
def handleSize : Nat := 24

/-- The size of the handles of all workers. -/
def Config.handleBytes (config : Config) : Nat := handleSize * config.threads.toNat

/-- Whether the handles of all workers are not too large for any memory: their size must fit a signed
word. -/
def Config.handlesFit (config : Config) : Bool := config.handleBytes < UInt64.size / 2

/-- Starts the workers of an acceptable configuration, waits for them, and draws the conclusion: the
log of the benchmark and how it ended. -/
def runWorkers (primitive : Primitive) (config : Config) (expected : UInt64)
    (launch : Unit → Launch) : List LogRecord × Outcome Report :=
  let start := startRecord primitive config
  if config.handlesFit then
    match launch () with
    | .complete x => (start :: x.completed.map workerRecord, conclude primitive expected x)
    | .threadRefused x error =>
      (start :: x.completed.map workerRecord, .notStarted (.threadRefused error))
    | .memoryRefused => ([start], .notStarted (.memoryRefused config.handleBytes))
  else ([start], .notStarted .tooManyHandles)

/-- Runs a benchmark: its log and how it ended. The workers are started only if the configuration is
acceptable. -/
def run (primitive : Primitive) (config : Config) (launch : Unit → Launch) :
    List LogRecord × Outcome Report :=
  match config.validate with
  | .error error => ([], .failed error)
  | .ok expected => runWorkers primitive config expected launch

/-! ### Workers one after the other -/

variable (L : RawLock)

/-- One increment by a worker that nobody interferes with: it takes the lock, adds one to the
counter, and gives the lock back. A sum that does not fit the counter makes the worker panic, which
gives the lock back too. -/
def increment (s : L.State × UInt64) : WorkerEnd × (L.State × UInt64) :=
  let arrival := L.lock s.1
  if arrival.holds then
    let sum := Word.add? s.2 1
    match L.unlock arrival.pass arrival.state with
    | .error _ => (.panicked, (arrival.state, sum.getD s.2))
    | .ok release =>
      (if sum.isSome then .completed else .panicked, (release.state, sum.getD s.2))
  else (.panicked, (arrival.state, s.2))

/-- A worker with a number of increments to go. -/
def work : Nat → L.State × UInt64 → WorkerEnd × (L.State × UInt64)
  | 0, s => (.completed, s)
  | n + 1, s =>
    match increment L s with
    | (.completed, s) => work n s
    | (.panicked, s) => (.panicked, s)

/-- A number of workers, one after the other. -/
def workInTurn (increments : Nat) : Nat → L.State × UInt64 → List WorkerEnd × (L.State × UInt64)
  | 0, s => ([], s)
  | workers + 1, s =>
    let (last, s) := work L increments s
    let (ends, s) := workInTurn increments workers s
    (last :: ends, s)

/-- The execution in which the workers run one after the other. -/
def execute (primitive : Primitive) (config : Config) : Execution :=
  let L := primitive.raw
  let (ends, _, counter) :=
    workInTurn L config.increments.toNat config.threads.toNat (L.new, 0)
  ⟨ends, (List.range ends.length).filter fun i => ends[i]? = some .completed, counter⟩

/-- A system that refuses nothing and runs the workers one after the other. -/
def launchInTurn (primitive : Primitive) (config : Config) : Launch :=
  .complete (execute primitive config)

end Handoff.Bench
