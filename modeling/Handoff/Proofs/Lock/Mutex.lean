import Handoff.Lock.Mutex
import Handoff.Proofs.Lock.Custody

/-!
# The custody of the sleeping lock

The word of a sleeping lock tells whether there is a line, and it must say so if anybody is in it
behind the holder, since a release wakes nobody otherwise (`Mutex.Tells`). The converse does not
hold: a thread that was woken takes the lock as one with waiters, even if it was the last.
-/

namespace Handoff.Mutex

/-! ### Calls that nobody interferes with -/

section Calls

variable {s : LockState}

theorem tryLock_locked (h : s ≠ .unlocked) : (ofState s).tryLock = (false, ofState s) := by
  rw [tryLock, transition_ofState, if_neg h]

/-- Whatever a held lock said before, an announcement leaves it saying that somebody waits. -/
theorem announce_locked (h : s ≠ .unlocked) :
    (ofState s).announce = ofState .lockedHasWaiters := by
  cases s with
  | unlocked => exact absurd rfl h
  | lockedNoWaiters => rfl
  | lockedHasWaiters => rfl

/-- How often a thread spins before it goes to sleep. It does not if somebody waits already. -/
def spinsBeforeSleep (s : LockState) : UInt64 :=
  if s = .lockedNoWaiters then spinLimit else 0

/-- Spinning alone does not make a held lock free. -/
theorem spinThenTry_locked (h : s ≠ .unlocked) :
    (ofState s).spinThenTry = (false, spinsBeforeSleep s, ofState s) := by
  rw [spinThenTry, tryLock_locked h]
  by_cases hquiet : s = .lockedNoWaiters
  · have hbusy : ∀ i ≤ spinLimit.toNat, (fun _ => (ofState s).worthSpinning) (0 + i) = true :=
      fun _ _ => decide_eq_true ((state_ofState s).trans hquiet)
    rw [SpinWait.whileBusy, SpinWait.whileBusyFrom_of_forall hbusy, spinsBeforeSleep,
      if_pos hquiet]
    rfl
  · have hclear : (fun _ => (ofState s).worthSpinning) 0 = false :=
      decide_eq_false fun e => hquiet ((state_ofState s).symm.trans e)
    rw [SpinWait.whileBusy, SpinWait.whileBusyFrom_of_clear hclear, spinsBeforeSleep,
      if_neg hquiet]
    rfl

theorem firstRound_locked (h : s ≠ .unlocked) :
    (ofState s).firstRound = (false, ofState .lockedHasWaiters) := by
  rw [firstRound, announce_locked h]
  rfl

/-- Whoever finds the lock held goes to sleep, the lock saying that somebody waits. -/
theorem lock_locked (h : s ≠ .unlocked) :
    (ofState s).lock = ⟨ofState .lockedHasWaiters, (), false, some (spinsBeforeSleep s)⟩ := by
  simp only [lock, tryLock_locked h, spinThenTry_locked h, firstRound_locked h]

/-- A release leaves the lock free, and wakes the sleepers if the lock said that there were some. -/
theorem unlock_locked (h : s ≠ .unlocked) :
    (ofState s).unlock = .ok ⟨ofState .unlocked, s = .lockedHasWaiters⟩ := by
  cases s with
  | unlocked => exact absurd rfl h
  | lockedNoWaiters => rfl
  | lockedHasWaiters => rfl

end Calls

/-! ### The line behind the word -/

/-- The word says whether somebody is in the line, and that somebody waits if so. -/
structure Tells (s : LockState) (line : List Unit) : Prop where
  unlocked_iff : s = .unlocked ↔ line = []
  hasWaiters : 1 < line.length → s = .lockedHasWaiters

variable {s : LockState} {pass heir : Unit} {line : List Unit}

theorem Tells.locked (h : Tells s (pass :: line)) : s ≠ .unlocked := fun e =>
  nomatch h.unlocked_iff.1 e

theorem Tells.of_alone : Tells .lockedNoWaiters [pass] :=
  ⟨⟨nofun, nofun⟩, fun h => absurd h (Nat.lt_irrefl 1)⟩

theorem Tells.of_waiting (line : List Unit) : Tells .lockedHasWaiters (pass :: line) :=
  ⟨⟨nofun, nofun⟩, fun _ => rfl⟩

/-- The line behind the word. The number of passes does not matter. -/
def custody : Custody raw where
  Room _ := True
  Holds _ l line := ∃ s, l = ofState s ∧ Tells s line
  new := ⟨.unlocked, rfl, ⟨⟨fun _ => rfl, fun _ => rfl⟩, nofun⟩⟩
  locked {n l line} h := by
    obtain ⟨s, rfl, htells⟩ := h
    change decide ((ofState s).state ≠ .unlocked) = _
    rw [state_ofState]
    cases line with
    | nil => exact decide_eq_false fun hlocked => hlocked (htells.unlocked_iff.2 rfl)
    | cons pass line => exact decide_eq_true htells.locked
  lock {n l line} h _ := by
    obtain ⟨s, rfl, htells⟩ := h
    cases line with
    | nil =>
      obtain rfl := htells.unlocked_iff.2 rfl
      exact ⟨rfl, .lockedNoWaiters, rfl, ⟨⟨nofun, nofun⟩, fun h => absurd h (by decide)⟩⟩
    | cons pass line =>
      simp only [raw, lock_locked htells.locked]
      exact ⟨rfl, .lockedHasWaiters, rfl, .of_waiting _⟩
  tryLock_nil {n l} h _ := by
    obtain ⟨s, rfl, htells⟩ := h
    obtain rfl := htells.unlocked_iff.2 rfl
    exact ⟨(), _, rfl, .lockedNoWaiters, rfl, ⟨⟨nofun, nofun⟩, fun h => absurd h (by decide)⟩⟩
  tryLock_cons {n l pass line} h := by
    obtain ⟨s, rfl, htells⟩ := h
    simp only [raw, tryLock_locked htells.locked]
    rfl
  unlock_last {n l pass} h := by
    obtain ⟨s, rfl, htells⟩ := h
    exact ⟨_, unlock_locked htells.locked, .unlocked, rfl, ⟨⟨fun _ => rfl, fun _ => rfl⟩, nofun⟩⟩
  unlock_next {n l pass heir line} h := by
    obtain ⟨s, rfl, htells⟩ := h
    -- two are in the line, so the word says that somebody waits and the release wakes them
    obtain rfl := htells.hasWaiters (Nat.succ_lt_succ (Nat.succ_pos _))
    exact ⟨_, ofState .lockedHasWaiters, unlock_locked htells.locked, rfl, rfl,
      .lockedHasWaiters, rfl, .of_waiting _⟩
  unlockUnheld {n l call} h hcall := by
    obtain ⟨s, rfl, htells⟩ := h
    obtain rfl := Option.some.inj hcall
    obtain rfl := htells.unlocked_iff.2 rfl
    exact ⟨.wordUnlocked, rfl, rfl⟩

end Handoff.Mutex
