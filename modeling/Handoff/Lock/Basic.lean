import Handoff.Clock

/-!
# What a lock offers

A `RawLock` is a lock as its callers meet it one call at a time: what each call does to the state
when no other thread gets in between, up to the point where it returns or has to wait. Whoever
holds the lock or waits for it keeps a *pass*: its ticket, or its node in the queue. A waiting
thread that looks again at the lock does what `recheck` says.

Calls that a lock cannot carry out end in a `Fault`, which leaves the lock as it was.
-/

namespace Handoff

/-- The value of the word of a sleeping lock. -/
inductive LockState
  | unlocked
  | lockedNoWaiters
  | lockedHasWaiters
deriving Repr, DecidableEq

namespace LockState

/-- The name of a state. -/
def name : LockState → String
  | .unlocked => "Unlocked"
  | .lockedNoWaiters => "LockedNoWaiters"
  | .lockedHasWaiters => "LockedHasWaiters"

/-- The word that stands for a state. -/
def toWord : LockState → UInt32
  | .unlocked => 0
  | .lockedNoWaiters => 1
  | .lockedHasWaiters => 2

/-- The state that a word stands for. -/
def ofWord? : UInt32 → Option LockState
  | 0 => some .unlocked
  | 1 => some .lockedNoWaiters
  | 2 => some .lockedHasWaiters
  | _ => none

@[simp] theorem ofWord?_toWord (s : LockState) : ofWord? s.toWord = some s := by
  cases s <;> rfl

theorem toWord_injective {s t : LockState} (h : s.toWord = t.toWord) : s = t := by
  cases s <;> cases t <;> first | rfl | exact absurd h (by decide)

end LockState

/-- Why a call on a lock cannot be carried out. -/
inductive Fault
  /-- The flag lock was unlocked while its flag was down. -/
  | flagDown
  /-- The ticket lock was unlocked while no ticket was being served. -/
  | nobodyServed
  /-- The sleeping lock was unlocked while its word said unlocked. -/
  | wordUnlocked
  /-- The ticket numbers are used up. -/
  | ticketsExhausted
  /-- A release of the queue lock waits for a successor that does not link itself in. -/
  | successorUnlinked
deriving Repr, DecidableEq

/-- The text of a fault. -/
def Fault.message : Fault → String
  | .flagDown => "unlock of an unlocked TTAS lock"
  | .nobodyServed => "unlock of an unlocked ticket lock"
  | .wordUnlocked =>
    let state := LockState.unlocked.name
    "assertion `left != right` failed: unlock of an unlocked mutex\n  left: " ++ state ++
      "\n right: " ++ state
  | .ticketsExhausted => "attempt to add with overflow"
  | .successorUnlinked => "the successor is not linked in"

/-- What anybody can see of a lock. -/
structure View where
  /-- Whether somebody holds the lock. -/
  locked : Bool
  /-- The number of threads that hold the lock or wait for it, for a lock that counts them. -/
  queueLen : Option UInt64
  /-- The state of the word, for a lock that sleeps. -/
  state : Option LockState
deriving Repr, DecidableEq

/-- What a call of `lock` comes to when it is left alone. -/
structure Arrival (State Pass : Type) where
  state : State
  pass : Pass
  /-- Whether the thread holds the lock now; otherwise it waits. -/
  holds : Bool
  /-- The number of spins after which the thread said that it goes to sleep, if it did. -/
  spunBeforeSleep : Option UInt64

/-- What a release leaves behind. -/
structure Release (State : Type) where
  state : State
  /-- Whether the waiting threads look at the lock again: those that spin do, those that sleep only
  when they are woken. -/
  wakes : Bool

/-- The calls with a deadline. -/
structure TimedCalls (State Pass : Type) where
  /-- Tries to get the lock until a deadline, given the readings of the clock in turn: whether the
  call got a pass, or `none` if it has not returned by the last reading. -/
  tryLockUntil : Instant → List Instant → State → Option (Option Pass) × State
  /-- A call with a deadline that is not near, up to where it holds the lock or sleeps. -/
  arrive : State → Arrival State Pass

/-- A lock as its callers meet it. -/
structure RawLock where
  State : Type
  Pass : Type
  /-- A lock that nobody holds. -/
  new : State
  /-- Whether the waiting threads get the lock in the order of their arrival. -/
  fair : Bool
  /-- Takes the lock if nobody holds it. -/
  tryLock : State → Except Fault (Option Pass × State)
  /-- Takes the lock or starts to wait for it. -/
  lock : State → Arrival State Pass
  /-- A waiting thread looks at the lock again: whether it holds the lock now. -/
  recheck : Pass → State → Bool × State
  /-- Gives the lock back. -/
  unlock : Pass → State → Except Fault (Release State)
  /-- Gives the lock back without a pass, for a lock on which that can be called. -/
  unlockUnheld : Option (State → Except Fault (Release State))
  /-- The calls with a deadline, for a lock that has them. -/
  timed : Option (TimedCalls State Pass)
  view : State → View

end Handoff
