import Handoff.Lock.Session

/-!
# The ideal lock

What a fair lock is, without flags, counters, nodes or words: somebody holds it or nobody does, and
the waiting threads form a list from which the first one is served. `Ideal` carries out the steps
that all locks have in common.
-/

namespace Handoff

/-- A lock that is nothing but its holder and its waiting threads. -/
structure Ideal (ι : Type) where
  /-- The id that the caller goes by. -/
  caller : ι
  holder : Option ι
  waiting : List ι
deriving Repr, DecidableEq

namespace Ideal

variable {ι : Type}

/-- A lock that nobody holds. -/
def new (caller : ι) : Ideal ι := ⟨caller, none, []⟩

/-- Whether somebody holds the lock. -/
def locked (s : Ideal ι) : Bool := s.holder.isSome

/-- The holder gives the lock to the first of the waiting threads. -/
def unlock (s : Ideal ι) : SessionAnswer ι × Ideal ι :=
  match s.holder, s.waiting with
  | none, _ => (.notHeld, s)
  | some _, [] => (.handed .nobody, { s with holder := none })
  | some _, id :: waiting => (.handed (.thread id), { s with holder := some id, waiting })

/-- Carries out a step. The caller takes a free lock and nothing else; a thread that finds the lock
held waits at the end of the line. -/
def step (s : Ideal ι) : SessionStep ι → SessionAnswer ι × Ideal ι
  | .lock =>
    if s.locked then (.wouldBlock, s) else (.got true, { s with holder := some s.caller })
  | .tryLock =>
    if s.locked then (.got false, s) else (.got true, { s with holder := some s.caller })
  | .threadTryLock => (.got (!s.locked), s)
  | .spawn id =>
    if s.locked then (.waiting, { s with waiting := s.waiting ++ [id] })
    else (.acquired id, { s with holder := some id })
  | .unlock => s.unlock
  | .look => (.shown, s)
  | .tryLockFor _ _ | .tryLockUntilNow _ | .spawnFor _ _ _ | .unlockFair | .unwind =>
    (.unsupported, s)

/-- Carries out steps in order: the answer to each, and whether the lock is held after it. -/
def run (s : Ideal ι) : List (SessionStep ι) → List (SessionAnswer ι × Bool) × Ideal ι
  | [] => ([], s)
  | step :: steps =>
    let (answer, s) := s.step step
    let locked := s.locked
    let (answers, s) := s.run steps
    ((answer, locked) :: answers, s)

/-- Gives the lock back until nobody holds it: the waiting threads get it in order. -/
def drain (s : Ideal ι) : List (Next ι) :=
  if s.locked then s.waiting.map .thread ++ [.nobody] else []

end Ideal

end Handoff
