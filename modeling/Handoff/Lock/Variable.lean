import Handoff.Lock.Guarded

/-!
# Variables

What a guarded list is to whoever uses it properly: a variable that holds a list. Nothing has to be
taken, given back or waited for. A use that panics is no different from one that returns, except
that it has nothing to answer, and an attempt made in the middle of a use comes to nothing.

The uses that do without the guard are no uses of a variable, and are refused.
-/

namespace Handoff

namespace GuardedStep

variable {α : Type}

/-- Whether the lock is given back by the guard that was handed out with it, if at all. -/
def givesBack : GuardedStep α → Bool
  | .leak | .forceUnlock => false
  | _ => true

/-- How often a use takes the lock. An attempt made while the lock is held does not get it. -/
def passes : GuardedStep α → Nat
  | .append _ | .tryAppend _ | .appendAndPanic _ | .appendTwice _ _ | .copy | .leak => 1
  | .replace _ | .forceUnlock => 0
  | .threads labels times => labels.length * times

/-- How often uses take the lock. -/
def passesOf : List (GuardedStep α) → Nat
  | [] => 0
  | step :: steps => step.passes + passesOf steps

end GuardedStep

namespace Variable

variable {α : Type}

/-- Carries out a use of a list that no lock protects. -/
def step (items : Array α) : GuardedStep α → GuardedAnswer α × Array α
  | .append value => (.length (items.size + 1), items.push value)
  | .tryAppend value => (.tried (some (items.size + 1)), items.push value)
  | .appendAndPanic value => (.panicked, items.push value)
  | .appendTwice value _ => (.held true false, items.push value)
  | .copy => (.items items, items)
  | .replace other => (.items items, other)
  | .threads labels times =>
    let items := items ++ labels.flatMap (List.replicate times)
    (.length items.size, items)
  | .leak | .forceUnlock => (.refused, items)

/-- Carries out uses in order: the answer to each. -/
def run (items : Array α) : List (GuardedStep α) → List (GuardedAnswer α) × Array α
  | [] => ([], items)
  | use :: uses =>
    let (answer, items) := step items use
    let (answers, items) := run items uses
    (answer :: answers, items)

theorem run_cons (items : Array α) (use : GuardedStep α) (uses : List (GuardedStep α)) :
    run items (use :: uses) =
      ((step items use).1 :: (run (step items use).2 uses).1,
        (run (step items use).2 uses).2) :=
  rfl

end Variable

end Handoff
