import Handoff.Proofs.Lock.Agreement
import Handoff.Proofs.Lock.Conduct

/-!
# The manners of the four locks

Each of the four locks behaves in its manner (`Primitive.conduct`), so a session on it shows what
the standing of the lock makes of it, step by step (`Primitive.tracks_run`). The flag, the counters
and the nodes know nothing of announcements, and nothing is seen of one. The word of the sleeping
lock is the announcement (`Mutex.Tells`).
-/

namespace Handoff

variable {ι : Type}

theorem decide_length_pos {α : Type} (l : List α) : decide (0 < l.length) = !l.isEmpty := by
  cases l <;> simp

/-- The conduct of a lock that shows nothing of announcements. -/
def Conduct.ofQuiet {L : RawLock} {m : Manner} (C : Custody L) (fair : L.fair = m.fair)
    (view : ∀ {n l line}, C.Holds n l line → ∀ b, L.view l = m.view line.length b)
    (spins : ∀ l, (L.lock l).spunBeforeSleep = none)
    (unlockUnheld : ∀ {n l}, C.Holds n l [] →
      L.unlockUnheld.map (fun call => call l) = m.unheld.map .error)
    (timed : L.timed = none) (sleepsAfter : m.sleepsAfter = none) : Conduct C m where
  Announced _ _ := True
  new := trivial
  fair := fair
  view h _ := view h _
  lock {n l line b} _ _ := by
    refine ⟨?_, trivial⟩
    rw [spins, Manner.spins, sleepsAfter, Option.map_none, ite_self]
  tryLock _ _ := trivial
  unlock_last _ _ := trivial
  unlock_next _ _ _ := trivial
  unlockUnheld := unlockUnheld
  timed_isSome := by rw [timed, sleepsAfter]; rfl
  timed h := nomatch timed.symm.trans h

theorem FlagLock.Shows.view_eq {l : FlagLock} {line : List Unit} (h : l.Shows line) (b : Bool) :
    raw.view l = Primitive.ttas.manner.view line.length b := by
  have hraised : l.raised = decide (0 < line.length) := h.trans (decide_length_pos line).symm
  exact congrArg (View.mk · none none) hraised

/-- The flag shows whether somebody holds the lock. -/
def FlagLock.conduct : Conduct FlagLock.custody Primitive.ttas.manner :=
  .ofQuiet FlagLock.custody rfl (fun h => Shows.view_eq h) (fun _ => rfl)
    (fun {n l} h => by
      have hunlock : FlagLock.unlock l = .error .flagDown := Shows.unlock_nil h
      simp only [raw, Option.map_some, hunlock]
      rfl)
    rfl rfl

theorem TicketLock.Serves.view_eq {n : Nat} {l : TicketLock} {line : List UInt64}
    (h : Serves n l line) (b : Bool) :
    raw.view l = Primitive.ticket.manner.view line.length b := by
  have hlocked : l.isLocked = decide (0 < line.length) :=
    h.isLocked_eq.trans (decide_length_pos line).symm
  have hlength : l.queueLen = UInt64.ofNat line.length := by
    rw [← h.toNat_queueLen, UInt64.ofNat_toNat]
  exact congrArg₂ (fun locked length => View.mk locked (some length) none) hlocked hlength

/-- The counters show how many hold the lock or wait for it. -/
def TicketLock.conduct : Conduct TicketLock.custody Primitive.ticket.manner :=
  .ofQuiet TicketLock.custody rfl (fun h => Serves.view_eq h) (fun _ => rfl)
    (fun {n l} h => by
      have hunlock : TicketLock.unlock l = .error .nobodyServed := Serves.unlock_nil h
      simp only [raw, Option.map_some, hunlock]
      rfl)
    rfl rfl

theorem QueueLock.IsQueue.view_eq {l : QueueLock} {line : List Address} (h : l.IsQueue line)
    (b : Bool) : raw.view l = Primitive.mcs.manner.view line.length b := by
  have hlocked : l.isLocked = decide (0 < line.length) :=
    h.isLocked_eq.trans (decide_length_pos line).symm
  exact congrArg (View.mk · none none) hlocked

/-- The tail shows whether somebody holds the lock. -/
def QueueLock.conduct : Conduct QueueLock.custody Primitive.mcs.manner :=
  .ofQuiet QueueLock.custody rfl (fun h => IsQueue.view_eq h) (fun _ => rfl) (fun _ => rfl) rfl rfl

namespace Mutex

variable {s : LockState} {line : List Unit} {b : Bool}

theorem sleeps_ofState (s : LockState) :
    (ofState s).sleeps = decide (s = .lockedHasWaiters) := by
  cases s <;> rfl

/-- The word of a lock is told by the length of its line and the announcement. -/
theorem Tells.eq_state (h : Tells s line) (hb : (ofState s).sleeps = b) :
    s = if line.length = 0 then .unlocked
      else if b then .lockedHasWaiters else .lockedNoWaiters := by
  subst hb
  rw [sleeps_ofState]
  cases line with
  | nil => exact h.unlocked_iff.2 rfl
  | cons pass line =>
    have hlocked := h.locked
    cases s with
    | unlocked => exact absurd rfl hlocked
    | lockedNoWaiters => rfl
    | lockedHasWaiters => rfl

/-- How often a thread spins before it goes to sleep is told by the announcement. -/
theorem spinsBeforeSleep_eq (hlocked : s ≠ .unlocked) (hb : (ofState s).sleeps = b) :
    spinsBeforeSleep s = if b then 0 else spinLimit := by
  subst hb
  cases s with
  | unlocked => exact absurd rfl hlocked
  | lockedNoWaiters => rfl
  | lockedHasWaiters => rfl

/-- In its rounds an attempt does not get a held lock, and gives up when a reading is past the
deadline. After a round the word says that somebody waits, however many follow. -/
theorem roundsUntil_locked (hlocked : s ≠ .unlocked) (deadline : Instant)
    (readings : List Instant) :
    roundsUntil deadline readings (ofState s) =
      (if readings.any (·.isPast deadline) then some false else none,
        ofState (if readings.head?.any fun now => !now.isPast deadline then .lockedHasWaiters
          else s)) := by
  induction readings generalizing s with
  | nil => rfl
  | cons now readings ih =>
    rw [roundsUntil, List.any_cons, List.head?_cons, Option.any_some]
    cases now.isPast deadline with
    | true => rfl
    | false =>
      have hround : (ofState s).round = (false, ofState .lockedHasWaiters) := by
        rw [round, announce_locked hlocked]
        rfl
      have hrest := ih (s := .lockedHasWaiters) nofun
      rw [ite_self] at hrest
      simp only [hround, hrest, Bool.false_eq_true, if_false, Bool.false_or]
      rfl

/-- An attempt on a held lock comes to what its rounds come to. -/
theorem tryLockUntil_locked (hlocked : s ≠ .unlocked) (deadline : Instant)
    (readings : List Instant) :
    tryLockUntil deadline readings (ofState s) = roundsUntil deadline readings (ofState s) := by
  rw [tryLockUntil, tryLock_locked hlocked]

theorem arriveUntil_locked (hlocked : s ≠ .unlocked) :
    (ofState s).arriveUntil = ⟨ofState .lockedHasWaiters, (), false, none⟩ := by
  simp only [arriveUntil, tryLock_locked hlocked, firstRound_locked hlocked]

/-- The calls with a deadline keep the line behind the word. -/
theorem custody_timed {calls : TimedCalls raw.State raw.Pass} (h : raw.timed = some calls) :
    custody.Timed (fun b l => sleeps l = b) calls := by
  obtain rfl := Option.some.inj h
  refine ⟨?_, ?_, ?_⟩
  · rintro n l ⟨s, rfl, htells⟩ - deadline readings
    obtain rfl := htells.unlocked_iff.2 rfl
    exact ⟨(), _, rfl, ⟨.lockedNoWaiters, rfl, .of_alone⟩, rfl⟩
  · rintro n l pass line b ⟨s, rfl, htells⟩ hb deadline readings
    simp only [tryLockUntil_locked htells.locked, roundsUntil_locked htells.locked]
    refine ⟨ofState (if readings.head?.any fun now => !now.isPast deadline then .lockedHasWaiters
      else s), ?_, ?_⟩
    · cases readings.any (·.isPast deadline) <;> rfl
    · cases readings.head?.any fun now => !now.isPast deadline with
      | true => exact ⟨⟨_, rfl, .of_waiting _⟩, (Bool.or_true b).symm⟩
      | false => exact ⟨⟨s, rfl, htells⟩, hb.trans (Bool.or_false b).symm⟩
  · rintro n l line ⟨s, rfl, htells⟩ -
    cases line with
    | nil =>
      obtain rfl := htells.unlocked_iff.2 rfl
      exact ⟨rfl, rfl, ⟨.lockedNoWaiters, rfl, .of_alone⟩, rfl⟩
    | cons pass line =>
      simp only [arriveUntil_locked htells.locked]
      exact ⟨rfl, trivial, ⟨.lockedHasWaiters, rfl, .of_waiting _⟩, rfl⟩

/-- The word shows whether somebody holds the lock, and whether it is announced that somebody
waits. -/
def conduct : Conduct custody Primitive.futex.manner where
  Announced b l := sleeps l = b
  new := rfl
  fair := rfl
  view {n l line b} h hb := by
    obtain ⟨s, rfl, htells⟩ := h
    have hstate := htells.eq_state hb
    have hlocked : decide (s ≠ .unlocked) = decide (0 < line.length) :=
      decide_eq_decide.2 (htells.unlocked_iff.not.trans List.length_pos_iff.symm)
    change View.mk (decide ((ofState s).state ≠ .unlocked)) none (some (ofState s).state) = _
    rw [state_ofState, hlocked]
    exact congrArg (View.mk _ none <| some ·) hstate
  lock {n l line b} h hb := by
    obtain ⟨s, rfl, htells⟩ := h
    cases line with
    | nil =>
      obtain rfl := htells.unlocked_iff.2 rfl
      exact ⟨rfl, rfl⟩
    | cons pass line =>
      simp only [raw, lock_locked htells.locked, spinsBeforeSleep_eq htells.locked hb]
      exact ⟨rfl, rfl⟩
  tryLock {n l l' pass} h htry := by
    obtain ⟨s, rfl, htells⟩ := h
    obtain rfl := htells.unlocked_iff.2 rfl
    obtain rfl := congrArg Prod.snd (Except.ok.inj htry)
    rfl
  unlock_last {n l pass release} h hunlock := by
    obtain ⟨s, rfl, htells⟩ := h
    obtain rfl := Except.ok.inj ((unlock_locked htells.locked).symm.trans hunlock)
    rfl
  unlock_next {n l l' pass heir line release} h hunlock hrecheck := by
    obtain ⟨s, rfl, htells⟩ := h
    obtain rfl := Except.ok.inj ((unlock_locked htells.locked).symm.trans hunlock)
    obtain rfl := congrArg Prod.snd hrecheck
    rfl
  unlockUnheld {n l} h := by
    obtain ⟨s, rfl, htells⟩ := h
    obtain rfl := htells.unlocked_iff.2 rfl
    rfl
  timed_isSome := rfl
  timed := custody_timed

end Mutex

namespace Primitive

/-- The conduct of the lock of each kind. -/
def conduct : (p : Primitive) → Conduct p.custody p.manner
  | .ttas => FlagLock.conduct
  | .ticket => TicketLock.conduct
  | .mcs => QueueLock.conduct
  | .futex => Mutex.conduct

variable [BEq ι] (p : Primitive) (caller : ι) (steps : List (SessionStep ι))

/-- A script on a new lock shows what the standing of the lock makes of it. It does not matter in
which of the two runs the tickets are counted. -/
theorem tracks_run_of_min
    (hfew : p = .ticket → min (ticketsDrawn caller steps)
      (passesDrawn ((Standing.new caller).run p.manner steps).1) < UInt64.size - 1) :
    ((Session.new caller : Session p.raw ι).run steps).1 =
        ((Standing.new caller).run p.manner steps).1 ∧
      ∃ drawn, p.conduct.Tracks drawn ((Session.new caller : Session p.raw ι).run steps).2
        ((Standing.new caller).run p.manner steps).2 := by
  have hroom : ∀ n ≤ 0 + min (passesDrawn ((Session.new caller : Session p.raw ι).run steps).1)
      (passesDrawn ((Standing.new caller).run p.manner steps).1), p.custody.Room n :=
    fun n hn => p.room fun hp => by
      subst hp
      rw [Nat.zero_add] at hn
      exact Nat.lt_of_le_of_lt hn (hfew rfl)
  obtain ⟨hreplies, htracks⟩ := (p.conduct.tracks_new caller).run hroom
  exact ⟨hreplies, _, htracks⟩

theorem tracks_run (hfew : p = .ticket → ticketsDrawn caller steps < UInt64.size - 1) :
    ((Session.new caller : Session p.raw ι).run steps).1 =
        ((Standing.new caller).run p.manner steps).1 ∧
      ∃ drawn, p.conduct.Tracks drawn ((Session.new caller : Session p.raw ι).run steps).2
        ((Standing.new caller).run p.manner steps).2 :=
  p.tracks_run_of_min caller steps fun hp => Nat.lt_of_le_of_lt (Nat.min_le_left _ _) (hfew hp)

end Primitive

end Handoff
