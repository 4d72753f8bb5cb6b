import Handoff.Lock.Basic

/-!
# The flag lock

One flag, up while somebody holds the lock. To take the lock is to raise the flag in one
compare-and-swap. A waiting thread does not swap again and again: it reads the flag until it is
down, and only then tries the swap.
-/

namespace Handoff

/-- A test-and-test-and-set lock. -/
structure FlagLock where
  raised : Bool
deriving Repr, DecidableEq

namespace FlagLock

/-- A lock with its flag down. -/
def new : FlagLock := ⟨false⟩

/-- One compare-and-swap that raises the flag; whether it was down before. -/
def raise (l : FlagLock) : Bool × FlagLock :=
  if l.raised then (false, l) else (true, ⟨true⟩)

/-- Lowers the flag, which has to be up. -/
def unlock (l : FlagLock) : Except Fault FlagLock :=
  if l.raised then .ok ⟨false⟩ else .error .flagDown

/-- The flag lock as a `RawLock`. A thread that finds the flag up reads it until it is down. -/
def raw : RawLock where
  State := FlagLock
  Pass := Unit
  new := new
  fair := false
  tryLock l :=
    let (won, l) := l.raise
    .ok (if won then some () else none, l)
  lock l :=
    let (won, l) := l.raise
    ⟨l, (), won, none⟩
  recheck _ l := l.raise
  unlock _ l := return ⟨← l.unlock, true⟩
  unlockUnheld := some fun l => return ⟨← l.unlock, true⟩
  timed := none
  view l := ⟨l.raised, none, none⟩

end FlagLock

end Handoff
