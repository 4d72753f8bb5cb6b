import Handoff.Lock.Basic
import Handoff.Spin

/-!
# The sleeping lock

One word with three values: unlocked, locked with nobody waiting, locked with somebody waiting. The
third tells the releasing thread that it has to wake the sleepers; without it no release does.

A thread that finds the lock held spins for a while, unless somebody waits already. Then it goes in
rounds: it *announces* itself by changing the word to "has waiters", sleeps while the word is that,
and tries to *seize* the lock. It takes the lock as "has waiters" too, since it does not know
whether it was the only sleeper. An attempt with a deadline goes in the same rounds until a reading
of the clock is at or past it, and leaves its announcement behind.
-/

namespace Handoff

/-- A sleeping lock: its word. -/
structure Mutex where
  word : UInt32
deriving Repr, DecidableEq

namespace Mutex

/-- An unlocked lock. -/
def new : Mutex := ⟨LockState.unlocked.toWord⟩

/-- The greatest number of spins before a waiting thread goes to sleep. -/
def spinLimit : UInt64 := 100

/-- The state of the word; one that stands for none counts as "has waiters". -/
def state (l : Mutex) : LockState :=
  (LockState.ofWord? l.word).getD .lockedHasWaiters

/-- One compare-and-swap of the word. -/
def transition (l : Mutex) (expected new : LockState) : Bool × Mutex :=
  if l.word = expected.toWord then (true, ⟨new.toWord⟩) else (false, l)

/-- The lock whose word stands for a state. -/
def ofState (s : LockState) : Mutex := ⟨s.toWord⟩

@[simp] theorem state_ofState (s : LockState) : (ofState s).state = s := by
  simp [state, ofState]

theorem transition_ofState (s expected new : LockState) :
    (ofState s).transition expected new =
      if s = expected then (true, ofState new) else (false, ofState s) := by
  cases s <;> cases expected <;> rfl

theorem transition_eq_or (l : Mutex) (expected new : LockState) :
    (l = ofState expected ∧ l.transition expected new = (true, ofState new)) ∨
      (l ≠ ofState expected ∧ l.transition expected new = (false, l)) := by
  by_cases h : l.word = expected.toWord
  · exact .inl ⟨congrArg mk h, if_pos h⟩
  · exact .inr ⟨fun e => h (congrArg word e), if_neg h⟩

/-- Takes the lock if it is free. -/
def tryLock (l : Mutex) : Bool × Mutex :=
  l.transition .unlocked .lockedNoWaiters

/-- Says that somebody waits, if the lock is held and nobody has said so. -/
def announce (l : Mutex) : Mutex :=
  (l.transition .lockedNoWaiters .lockedHasWaiters).2

/-- Whether a thread that goes to sleep now stays asleep. -/
def sleeps (l : Mutex) : Bool :=
  l.word = LockState.lockedHasWaiters.toWord

/-- Takes the lock if it is free, for a thread that has slept. -/
def seize (l : Mutex) : Bool × Mutex :=
  l.transition .unlocked .lockedHasWaiters

/-- Whether a spinning thread keeps spinning. -/
def worthSpinning (l : Mutex) : Bool :=
  l.state = .lockedNoWaiters

/-- Stores "unlocked" whatever the word is. -/
def storeUnlocked (_ : Mutex) : Mutex := new

/-- Gives the lock back. If somebody waits, all sleepers are woken. -/
def unlock (l : Mutex) : Except Fault (Release Mutex) :=
  if l.state = .unlocked then .error .wordUnlocked
  else
    match l.transition .lockedNoWaiters .unlocked with
    | (true, l) => .ok ⟨l, false⟩
    | (false, l) => .ok ⟨l.storeUnlocked, true⟩

/-! ### Calls that nobody interferes with -/

/-- Spins while nobody waits for the held lock, and then tries once more: whether that got the lock,
and the number of spins. -/
def spinThenTry (l : Mutex) : Bool × UInt64 × Mutex :=
  let spun := SpinWait.new.whileBusy (fun _ => l.worthSpinning) spinLimit
  let (won, l) := l.tryLock
  (won, spun.waiter.spins, l)

/-- The first round up to the sleep, or to the seizure if the word is not such that the thread
sleeps. -/
def firstRound (l : Mutex) : Bool × Mutex :=
  let l := l.announce
  if l.sleeps then (false, l) else l.seize

/-- Takes the lock, or waits for it asleep. -/
def lock (l : Mutex) : Arrival Mutex Unit :=
  match l.tryLock with
  | (true, l) => ⟨l, (), true, none⟩
  | (false, l) =>
    match l.spinThenTry with
    | (true, _, l) => ⟨l, (), true, none⟩
    | (false, spins, l) =>
      let (won, l) := l.firstRound
      ⟨l, (), won, some spins⟩

/-- A thread that was woken seizes the lock, or announces itself and sleeps again. -/
def recheck (l : Mutex) : Bool × Mutex :=
  match l.seize with
  | (true, l) => (true, l)
  | (false, l) => (false, l.announce)

/-- One round of an attempt with a deadline, its sleep having ended. -/
def round (l : Mutex) : Bool × Mutex :=
  l.announce.seize

/-- Goes in rounds until a reading of the clock is at or past the deadline. The answer is `none` if
the readings end before. -/
def roundsUntil (deadline : Instant) : List Instant → Mutex → Option Bool × Mutex
  | [], l => (none, l)
  | now :: readings, l =>
    if now.isPast deadline then (some false, l)
    else
      match l.round with
      | (true, l) => (some true, l)
      | (false, l) => roundsUntil deadline readings l

/-- Tries to take the lock until a deadline, given the readings of the clock in turn. -/
def tryLockUntil (deadline : Instant) (readings : List Instant) (l : Mutex) :
    Option Bool × Mutex :=
  match l.tryLock with
  | (true, l) => (some true, l)
  | (false, l) => roundsUntil deadline readings l

/-- A call with a deadline that is not near, up to where it holds the lock or sleeps. -/
def arriveUntil (l : Mutex) : Arrival Mutex Unit :=
  match l.tryLock with
  | (true, l) => ⟨l, (), true, none⟩
  | (false, l) =>
    let (won, l) := l.firstRound
    ⟨l, (), won, none⟩

/-- The text in which a thread says that it goes to sleep. -/
def sleepMessage (spins : UInt64) : String :=
  "futex mutex still held after " ++ toString spins.toNat ++ " spins, going to sleep"

/-- The sleeping lock as a `RawLock`. -/
def raw : RawLock where
  State := Mutex
  Pass := Unit
  new := new
  fair := false
  tryLock l :=
    let (won, l) := l.tryLock
    .ok (if won then some () else none, l)
  lock := lock
  recheck _ l := l.recheck
  unlock _ l := l.unlock
  unlockUnheld := some unlock
  timed := some {
    tryLockUntil := fun deadline readings l =>
      let (won, l) := tryLockUntil deadline readings l
      (won.map fun won => if won then some () else none, l)
    arrive := arriveUntil }
  view l := ⟨l.state ≠ .unlocked, none, some l.state⟩

end Mutex

end Handoff
