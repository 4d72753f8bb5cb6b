import Handoff.Lock.Mutex
import Handoff.Threads.Basic

/-!
# The sleeping lock, access by access

Beside the word, the threads share the set of those that sleep on it. Going to sleep is one access:
a thread falls asleep only if the word says "has waiters" at that moment. A thread leaves its sleep
because all sleepers are woken, because its time is over, or for no reason. A release that finds
waiters stores "unlocked" and then wakes all sleepers, in two accesses.

The clock may read anything at any time.
-/

namespace Handoff.Mutex

/-- How long a thread is ready to sleep. -/
inductive Patience
  | unlimited
  /-- Until a deadline; the span that is left according to the last reading of the clock. -/
  | limited (deadline : Instant) (left : Span)
deriving Repr, DecidableEq

/-- Where a thread is in the code of the sleeping lock. -/
inductive Point
  | idle
  /-- In `tryLockFor`, before the reading of the clock from which the deadline is computed. -/
  | planning (span : Span)
  /-- In `tryLock`, before the swap. -/
  | trying
  /-- In `lock`, before the first swap. -/
  | taking
  /-- In `lock`, before a look at the word. -/
  | spinning (left : UInt64) (w : SpinWait)
  /-- In `lock`, before the swap that follows the spins. -/
  | takingAgain (w : SpinWait)
  /-- In `tryLockUntil`, before the first swap. -/
  | takingUntil (deadline : Instant)
  /-- In `tryLockUntil`, before a reading of the clock. -/
  | checkingClock (deadline : Instant)
  /-- Before the swap that announces a waiting thread. -/
  | announcing (patience : Patience)
  /-- Before falling asleep. -/
  | settling (patience : Patience)
  | asleep (patience : Patience)
  /-- Before the swap that seizes the lock. -/
  | seizing (patience : Patience)
  | holding
  /-- In `unlock`, before the check that the lock is held. -/
  | checking
  /-- In `unlock`, before the swap of a lock without waiters. -/
  | releasing
  /-- In `unlock`, before "unlocked" is stored. -/
  | storing
  /-- In `unlock`, before all sleepers are woken. -/
  | waking
  | broken
deriving Repr, DecidableEq

/-- What a thread does next. -/
inductive Choice
  /-- Start a call. -/
  | lock
  | tryLock
  | tryLockFor (span : Span)
  | tryLockUntil (deadline : Instant)
  | unlock
  /-- Read the clock. -/
  | read (now : Instant)
  /-- Leave the sleep without being woken. -/
  | wakeUp
  /-- Make the next access. -/
  | proceed
deriving Repr, DecidableEq

/-- What the threads share. -/
structure Memory (ι : Type) where
  lock : Mutex
  asleep : ι → Bool

variable {ι : Type} [DecidableEq ι]

/-- The memory with one thread asleep or awake. -/
def Memory.setAsleep (m : Memory ι) (t : ι) (b : Bool) : Memory ι :=
  { m with asleep := fun u => if u = t then b else m.asleep u }

@[simp] theorem Memory.setAsleep_self (m : Memory ι) (t : ι) (b : Bool) :
    (m.setAsleep t b).asleep t = b := if_pos rfl

theorem Memory.setAsleep_of_ne (m : Memory ι) {t u : ι} (b : Bool) (h : u ≠ t) :
    (m.setAsleep t b).asleep u = m.asleep u := if_neg h

/-- Where a thread goes after a swap. -/
def Memory.after (m : Memory ι) (swap : Bool × Mutex) (won lost : Point) : Memory ι × Point :=
  ({ m with lock := swap.2 }, if swap.1 then won else lost)

/-- One access of a thread. -/
def access (t : ι) (choice : Choice) (m : Memory ι) : Point → Memory ι × Point
  | .idle =>
    match choice with
    | .lock => (m, .taking)
    | .tryLock => (m, .trying)
    | .tryLockFor span => (m, .planning span)
    | .tryLockUntil deadline => (m, .takingUntil deadline)
    | _ => (m, .idle)
  | .planning span =>
    match choice with
    | .read now =>
      match now.later? span with
      | none => (m, .taking)
      | some deadline => (m, .takingUntil deadline)
    | _ => (m, .planning span)
  | .trying => m.after m.lock.tryLock .holding .idle
  | .taking => m.after m.lock.tryLock .holding (.spinning spinLimit .new)
  | .spinning left w =>
    if m.lock.worthSpinning then
      if left = 0 then (m, .takingAgain w) else (m, .spinning (left - 1) w.spin)
    else (m, .takingAgain w)
  | .takingAgain _ => m.after m.lock.tryLock .holding (.announcing .unlimited)
  | .takingUntil deadline => m.after m.lock.tryLock .holding (.checkingClock deadline)
  | .checkingClock deadline =>
    match choice with
    | .read now =>
      if now.isPast deadline then (m, .idle)
      else (m, .announcing (.limited deadline (now.remaining deadline)))
    | _ => (m, .checkingClock deadline)
  | .announcing patience => ({ m with lock := m.lock.announce }, .settling patience)
  | .settling patience =>
    if m.lock.sleeps then (m.setAsleep t true, .asleep patience) else (m, .seizing patience)
  | .asleep patience =>
    if !m.asleep t then (m, .seizing patience)
    else if choice = .wakeUp then (m.setAsleep t false, .seizing patience)
    else (m, .asleep patience)
  | .seizing patience =>
    m.after m.lock.seize .holding <|
      match patience with
      | .unlimited => .announcing .unlimited
      | .limited deadline _ => .checkingClock deadline
  | .holding => (m, if choice = .unlock then .checking else .holding)
  | .checking => (m, if m.lock.state = .unlocked then .broken else .releasing)
  | .releasing => m.after (m.lock.transition .lockedNoWaiters .unlocked) .idle .storing
  | .storing => ({ m with lock := m.lock.storeUnlocked }, .waking)
  | .waking => ({ m with asleep := fun _ => false }, .idle)
  | .broken => (m, .broken)

/-- The sleeping lock as threads run it. -/
def code (ι : Type) [DecidableEq ι] : LockCode ι where
  Memory := Memory ι
  Point := Point
  Choice := Choice
  memory := ⟨new, fun _ => false⟩
  entry := .idle
  step := access
  lockEntry := .taking
  unlockEntry _ := .checking
  owns p := p = .holding
  idle p := p = .idle
  broken p := p = .broken

end Handoff.Mutex
