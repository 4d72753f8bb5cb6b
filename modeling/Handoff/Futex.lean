import Handoff.Text.Elapsed

/-!
# A word to wait on

Threads can sleep on a word: a thread goes to sleep only if the word holds the value it expects, and
that test and falling asleep are one step. Threads that are woken look at the word again, and go
back to sleep if it still holds what they expect. A wait with a time-out ends at the latest when its
time is over.

`Futex` is a word with the threads that sleep on it, in the order in which they fell asleep.
-/

namespace Handoff

/-- Why a wait with a time-out ended. -/
inductive WaitOutcome
  /-- The thread was woken, or the word did not hold the expected value. -/
  | woken
  /-- The time was over. -/
  | timedOut
deriving Repr, DecidableEq

/-- The name of an outcome. -/
def WaitOutcome.name : WaitOutcome → String
  | .woken => "woken"
  | .timedOut => "timed_out"

/-- A word and the threads that sleep on it. -/
structure Futex where
  word : UInt32
  /-- The value that each sleeping thread expects the word to hold. -/
  sleeping : List UInt32
deriving Repr, DecidableEq

/-- A use of the word. -/
inductive FutexStep
  /-- Wait while the word holds a value. -/
  | wait (expected : UInt32)
  /-- The same for no longer than a span. -/
  | waitTimeout (expected : UInt32) (span : Span)
  /-- Change the word and wake nobody. -/
  | store (value : UInt32)
  | wakeOne
  | wakeAll
  /-- Start a thread that waits until the word holds another value. -/
  | spawn (expected : UInt32)
  /-- Change the word and wake every thread. -/
  | storeWakeAll (value : UInt32)
  /-- Change the word and wake as many threads as there are, one by one. -/
  | storeWakeEach (value : UInt32)
deriving Repr, DecidableEq

/-- What a use answers. -/
inductive FutexAnswer
  | wouldBlock
  | returned
  | outcome (outcome : WaitOutcome)
  | done
  /-- The started thread found the word with another value. -/
  | passed (word : UInt32)
  | waiting
  /-- What the threads that stopped waiting saw. -/
  | woken (words : List UInt32)
deriving Repr, DecidableEq

namespace Futex

/-- The longest wait that is carried out when nobody will wake the waiting thread. -/
def patience : Span := .ofMillis 20

/-- A word on which nobody sleeps. -/
def new (word : UInt32) : Futex := ⟨word, []⟩

/-- Whether a thread that expects a value falls asleep. -/
def blocks (f : Futex) (expected : UInt32) : Bool := f.word = expected

/-- Wakes every thread. -/
def wakeAll (f : Futex) : Futex :=
  { f with sleeping := f.sleeping.filter f.blocks }

/-- Wakes the thread that has slept longest. If it sleeps again, it does so behind the others. -/
def wakeOne (f : Futex) : Futex :=
  match f.sleeping with
  | [] => f
  | expected :: rest =>
    { f with sleeping := if f.blocks expected then rest ++ [expected] else rest }

/-- What the threads saw that slept in `before` and do not sleep in `after`. -/
def seen (before after : Futex) : List UInt32 :=
  List.replicate (before.sleeping.length - after.sleeping.length) after.word

/-- Carries out a use: the answer, and the span of a wait whose time was over. -/
def step (f : Futex) : FutexStep → FutexAnswer × Option Span × Futex
  | .wait expected => (if f.blocks expected then .wouldBlock else .returned, none, f)
  | .waitTimeout expected span =>
    if f.blocks expected then
      if patience.shorterThan span then (.wouldBlock, none, f)
      else (.outcome .timedOut, some span, f)
    else (.outcome .woken, none, f)
  | .store value => (.done, none, { f with word := value })
  | .wakeOne => (.done, none, f.wakeOne)
  | .wakeAll => (.done, none, f.wakeAll)
  | .spawn expected =>
    if f.blocks expected then (.waiting, none, { f with sleeping := f.sleeping ++ [expected] })
    else (.passed f.word, none, f)
  | .storeWakeAll value =>
    let g := { f with word := value }.wakeAll
    (.woken (f.seen g), none, g)
  | .storeWakeEach value =>
    let g := Nat.repeat wakeOne f.sleeping.length { f with word := value }
    (.woken (f.seen g), none, g)

/-- Carries out uses in order: the answer to each and the word after it, and the spans of the waits
whose time was over. -/
def run (f : Futex) : List FutexStep → List (FutexAnswer × UInt32) × List Span × Futex
  | [] => ([], [], f)
  | step :: steps =>
    let (answer, span, f) := f.step step
    let word := f.word
    let (answers, spans, f) := f.run steps
    ((answer, word) :: answers, span.toList ++ spans, f)

/-- The text in which a thread says that its wait timed out; `place` is where the word is. -/
def timeoutMessage (place : String) (span : Span) : String :=
  "futex wait on " ++ place ++ " timed out after " ++ span.text

end Futex

end Handoff
