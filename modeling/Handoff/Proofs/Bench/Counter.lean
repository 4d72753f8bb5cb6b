import Mathlib.Algebra.BigOperators.Group.Finset.Piecewise
import Mathlib.Algebra.Order.BigOperators.Group.Finset
import Handoff.Proofs.Threads.Service
import Handoff.Threads.Workers

/-!
# The counter of a benchmark

An onlooker keeps a tally for each worker: how often it has written the counter. Under every schedule
the counter is the sum of the tallies (`Bench.Tallied`). The reason is what the workers know of the
lock, and nothing else: between a worker's look at the counter and its write it owns the lock, so no
other worker writes in between.

A worker that has so many increments to go has made all the others, which bounds the tallies by the
number of increments that each worker is told to make. If the sum of these fits a word, then so does
the counter, and so does the number of calls that take the lock, as the lock asks for.
-/

namespace Handoff.Bench

variable {ι : Type} [DecidableEq ι] {P : LockCode ι}

/-! ### Workers and the lock -/

/-- Where a worker is in the code of the lock. -/
def lockPoint (P : LockCode ι) : WorkerPoint P.Point → P.Point
  | .acquiring _ p | .reading _ p | .writing _ p _ | .releasing _ p | .unwinding p => p
  | .completed | .panicked => P.entry

/-- The lock and where the workers are in its code. -/
def lockState (lock : P.Memory) (point : ι → WorkerPoint P.Point) : P.State :=
  ⟨lock, fun t => lockPoint P (point t)⟩

/-- How often a worker has written the counter after an access, if it had done so a number of times
before it. -/
def written {Q : Type} : WorkerPoint Q → WorkerPoint Q → Nat → Nat
  | .writing _ _ _, .releasing _ _, n => n + 1
  | _, _, n => n

/-- How many calls that take the lock a worker has begun beyond those after which it has written the
counter. -/
def WorkerPoint.pending {Q : Type} : WorkerPoint Q → Nat
  | .acquiring _ _ | .reading _ _ | .writing _ _ _ => 1
  | _ => 0

/-- Whether a worker has a call on the lock under way. -/
def WorkerPoint.isCalling {Q : Type} : WorkerPoint Q → Bool
  | .acquiring _ _ | .releasing _ _ | .unwinding _ => true
  | _ => false

/-- What is known of a worker at a point when the counter has a value and the worker has written it a
number of times. -/
def WorkerPoint.Fits (S : P.Service) (increments : Nat) (counter : UInt64) (tally : Nat) :
    WorkerPoint P.Point → Prop
  | .acquiring left p => S.stage p = .taking ∧ 0 < left ∧ tally + left = increments
  | .reading left p => S.stage p = .owning ∧ 0 < left ∧ tally + left = increments
  | .writing left p value =>
    S.stage p = .owning ∧ 0 < left ∧ tally + left = increments ∧ value = counter
  | .releasing left p => S.stage p = .returning ∧ 0 < left ∧ tally + left = increments + 1
  | .completed => tally = increments
  | .unwinding _ | .panicked => False

/-- What an access of a worker does. -/
inductive Advance (S : P.Service) (t : ι) (choice : P.Choice) (m : WorkerMemory P.Memory) :
    WorkerPoint P.Point → WorkerMemory P.Memory → WorkerPoint P.Point → Prop
  | acquire {left : Nat} {p : P.Point}
      (hstage : S.stage (P.step t choice m.lock p).2 = .taking) :
      Advance S t choice m (.acquiring left p) { m with lock := (P.step t choice m.lock p).1 }
        (.acquiring left (P.step t choice m.lock p).2)
  | enter {left : Nat} {p : P.Point}
      (hstage : S.stage (P.step t choice m.lock p).2 = .owning) :
      Advance S t choice m (.acquiring left p) { m with lock := (P.step t choice m.lock p).1 }
        (.reading left (P.step t choice m.lock p).2)
  | read {left : Nat} {p : P.Point} :
      Advance S t choice m (.reading left p) m (.writing left p m.counter)
  | write {left : Nat} {p : P.Point} {counter : UInt64}
      (hcounter : counter.toNat = m.counter.toNat + 1) :
      Advance S t choice m (.writing left p m.counter) { m with counter }
        (.releasing left (P.unlockEntry p))
  | release {left : Nat} {p : P.Point}
      (hstage : S.stage (P.step t choice m.lock p).2 = .returning) :
      Advance S t choice m (.releasing left p) { m with lock := (P.step t choice m.lock p).1 }
        (.releasing left (P.step t choice m.lock p).2)
  | finish {left : Nat} {p : P.Point}
      (hentry : (P.step t choice m.lock p).2 = P.entry) :
      Advance S t choice m (.releasing left p) { m with lock := (P.step t choice m.lock p).1 }
        (nextIncrement P (left - 1))
  | rest : Advance S t choice m .completed m .completed

section Worker

variable {S : P.Service} {t : ι} {choice : P.Choice} {m : WorkerMemory P.Memory}
  {point : ι → WorkerPoint P.Point} {w : WorkerPoint P.Point} {increments n tally : Nat}

theorem lockState_update (lock : P.Memory) (point : ι → WorkerPoint P.Point) (t : ι)
    (w : WorkerPoint P.Point) :
    lockState lock (Function.update point t w) = (lockState lock point).moveTo t (lockPoint P w) := by
  refine congrArg (Program.State.mk lock) (funext fun u => ?_)
  rcases eq_or_ne u t with rfl | hu
  · rw [Function.update_self, if_pos rfl]
  · rw [Function.update_of_ne hu, if_neg hu]
    rfl

/-- A worker with a call under way moves as a user of the lock does. -/
theorem lockState_move {p : P.Point} (hp : lockPoint P (point t) = p)
    (hw : lockPoint P w = (P.step t choice m.lock p).2) :
    lockState (P.step t choice m.lock p).1 (Function.update point t w) =
      Program.move (lockState m.lock point) (t, choice) := by
  rw [lockState_update, hw, ← hp]
  rfl

/-- What is known of a worker depends on the counter only before the worker writes it. -/
theorem WorkerPoint.Fits.of_not_owning {counter counter' : UInt64}
    (h : w.Fits S increments counter tally) (hw : S.stage (lockPoint P w) ≠ .owning) :
    w.Fits S increments counter' tally := by
  cases w with
  | writing left p value => exact absurd h.1 hw
  | _ => exact h

/-- A call that a worker has under way is one under way for the lock. -/
theorem WorkerPoint.Fits.inCall {counter : UInt64} (h : w.Fits S increments counter tally)
    (hw : w.isCalling = true) : (S.stage (lockPoint P w)).inCall = true := by
  cases w with
  | acquiring left p | releasing left p =>
    rw [lockPoint, h.1]
    rfl
  | unwinding p => exact h.elim
  | _ => exact nomatch hw

theorem WorkerPoint.Fits.tally_le {counter : UInt64} (h : w.Fits S increments counter tally) :
    tally + w.pending ≤ increments := by
  cases w with
  | acquiring left p | reading left p =>
    obtain ⟨-, hleft, hsum⟩ := h
    exact hsum ▸ Nat.add_le_add_left hleft tally
  | writing left p value =>
    obtain ⟨-, hleft, hsum, -⟩ := h
    exact hsum ▸ Nat.add_le_add_left hleft tally
  | releasing left p =>
    obtain ⟨-, hleft, hsum⟩ := h
    change tally ≤ increments
    omega
  | completed => exact Nat.le_of_eq h
  | unwinding p => exact h.elim
  | panicked => exact h.elim

/-- What is known of a worker says what its next access does, given that the lock is sound and the
counter has room. -/
theorem WorkerPoint.Fits.advance (h : (point t).Fits S increments m.counter tally)
    (hsound : S.Sound n (lockState m.lock point))
    (hroom : tally < increments → m.counter.toNat + 1 < UInt64.size) :
    Advance S t choice m (point t) (workerAccess P t choice m (point t)).1
      (workerAccess P t choice m (point t)).2 := by
  -- a call under way goes on to the next stage
  have hnext : ∀ p, lockPoint P (point t) = p → (S.stage p).inCall = true →
      Stage.Next (S.stage p) (S.stage (P.step t choice m.lock p).2) := by
    rintro p rfl hcall
    have hmoved := S.next hsound (m := (t, choice)) hcall
    rwa [Program.move_point_self] at hmoved
  generalize hw : point t = w at h hnext
  cases w with
  | acquiring left p =>
    have hthen := hnext p rfl (h.inCall rfl)
    rw [h.1] at hthen
    generalize hstage' : S.stage (P.step t choice m.lock p).2 = stage at hthen
    cases hthen with
    | stay =>
      have howns : P.owns (P.step t choice m.lock p).2 = false := by
        rw [Bool.eq_false_iff, ne_eq, S.owns_iff, hstage']
        exact nofun
      have hbroken := S.broken (p := (P.step t choice m.lock p).2) (by rw [hstage']; exact nofun)
      simp only [workerAccess, howns, hbroken]
      exact .acquire hstage'
    | enter =>
      simp only [workerAccess, S.owns_iff.2 hstage', if_true]
      exact .enter hstage'
  | reading left p => exact .read
  | writing left p value =>
    obtain ⟨-, hleft, hsum, rfl⟩ := h
    have hlt : m.counter.toNat + 1 < UInt64.size := hroom (by omega)
    have hadd : Word.add? m.counter 1 = some (m.counter + 1) :=
      Word.add?_eq_some_iff.2 (Word.toNat_succ hlt)
    simp only [workerAccess, hadd]
    exact .write (Word.toNat_succ hlt)
  | releasing left p =>
    have hthen := hnext p rfl (h.inCall rfl)
    rw [h.1] at hthen
    generalize hstage' : S.stage (P.step t choice m.lock p).2 = stage at hthen
    cases hthen with
    | stay =>
      have hidle : P.idle (P.step t choice m.lock p).2 = false := by
        rw [Bool.eq_false_iff, ne_eq, S.idle_iff, ← S.away_iff, hstage']
        exact nofun
      have hbroken := S.broken (p := (P.step t choice m.lock p).2) (by rw [hstage']; exact nofun)
      simp only [workerAccess, hidle, hbroken]
      exact .release hstage'
    | finish =>
      have hentry := S.away_iff.1 hstage'
      simp only [workerAccess, S.idle_iff.2 hentry, if_true]
      exact .finish hentry
  | completed => exact .rest
  | unwinding p => exact h.elim
  | panicked => exact h.elim

namespace Advance

variable {m' : WorkerMemory P.Memory} {w' : WorkerPoint P.Point}

/-- What is known of a worker before its access is known of it afterwards. -/
theorem fits (h : Advance S t choice m w m' w') (hfits : w.Fits S increments m.counter tally) :
    w'.Fits S increments m'.counter (written w w' tally) := by
  cases h with
  | acquire hstage => exact ⟨hstage, hfits.2⟩
  | enter hstage => exact ⟨hstage, hfits.2⟩
  | read =>
    obtain ⟨hstage, hleft, hsum⟩ := hfits
    exact ⟨hstage, hleft, hsum, rfl⟩
  | write hcounter =>
    obtain ⟨hstage, hleft, hsum, -⟩ := hfits
    exact ⟨S.unlockEntry hstage, hleft, by rw [written, ← hsum]; omega⟩
  | release hstage => exact ⟨hstage, hfits.2⟩
  | @finish left p hentry =>
    obtain ⟨-, hleft, hsum⟩ := hfits
    match left with
    | 1 => exact Nat.succ.inj hsum
    | left + 2 => exact ⟨S.lockEntry, Nat.succ_pos left, Nat.succ.inj hsum⟩
  | rest => exact hfits

/-- The counter grows by one if the worker has written it. -/
theorem counter_eq (h : Advance S t choice m w m' w') :
    m'.counter.toNat + tally = m.counter.toNat + written w w' tally := by
  cases h with
  | write hcounter =>
    rw [hcounter, written]
    omega
  | @finish left p hentry =>
    match left with
    | 0 | 1 | left + 2 => rfl
  | _ => rfl

/-- The counter stays as it is unless the worker owns the lock. -/
theorem counter_of_not_owning (h : Advance S t choice m w m' w')
    (hfits : w.Fits S increments m.counter tally) (hw : S.stage (lockPoint P w) ≠ .owning) :
    m'.counter = m.counter := by
  cases h with
  | write hcounter => exact absurd hfits.1 hw
  | _ => rfl

/-- The lock serves the worker's access; the number of calls begun says whether the worker begins
the next one. -/
theorem sound {n' : Nat} (h : Advance S t choice m (point t) m' w')
    (hfits : (point t).Fits S increments m.counter tally)
    (hsound : S.Sound n (lockState m.lock point))
    (hcalls : n' + (tally + (point t).pending) =
      n + (written (point t) w' tally + w'.pending))
    (hfew : n' < UInt64.size) :
    S.Sound n' (lockState m'.lock (Function.update point t w')) := by
  have hmove : ∀ v, (S.stage (lockPoint P (point t))).inCall = true →
      lockPoint P v = (P.step t choice m.lock (lockPoint P (point t))).2 →
      S.Sound n (lockState (P.step t choice m.lock (lockPoint P (point t))).1
        (Function.update point t v)) := by
    intro v hcall hv
    rw [lockState_move rfl hv]
    exact S.access hsound hcall
  generalize hw : point t = w at h hfits hcalls hmove
  cases h with
  | acquire hstage =>
    obtain rfl : n' = n := Nat.add_right_cancel hcalls
    exact hmove _ (hfits.inCall rfl) rfl
  | enter hstage =>
    obtain rfl : n' = n := Nat.add_right_cancel hcalls
    exact hmove _ (hfits.inCall rfl) rfl
  | @read left p =>
    obtain rfl : n' = n := Nat.add_right_cancel hcalls
    have hstay : lockPoint P (.writing left p m.counter) = lockPoint P (point t) := by
      rw [hw]
      rfl
    rw [lockState_update, hstay, ← lockState_update, Function.update_eq_self]
    exact hsound
  | @write left p counter hcounter =>
    obtain rfl : n' = n := Nat.add_right_cancel hcalls
    have hp : (lockState m.lock point).point t = p := congrArg (lockPoint P) hw
    have hleave : lockPoint P (.releasing left (P.unlockEntry p)) =
        P.unlockEntry ((lockState m.lock point).point t) := by
      rw [hp]
      rfl
    rw [lockState_update, hleave]
    exact S.leave hsound (by rw [hp]; exact hfits.1)
  | release hstage =>
    obtain rfl : n' = n := Nat.add_right_cancel hcalls
    exact hmove _ (hfits.inCall rfl) rfl
  | @finish left p hentry =>
    have hdone := hmove .completed (hfits.inCall rfl) hentry.symm
    match left with
    | 0 | 1 =>
      obtain rfl : n' = n := Nat.add_right_cancel hcalls
      exact hdone
    | left + 2 =>
      obtain rfl : n' = n + 1 := by
        change n' + (tally + 0) = n + (tally + 1) at hcalls
        omega
      -- the worker begins the next call from where the last one ended
      have haway : S.stage ((lockState (P.step t choice m.lock p).1
          (Function.update point t .completed)).point t) = .away := by
        have hself : lockPoint P (Function.update point t .completed t) = P.entry :=
          congrArg (lockPoint P) (Function.update_self t .completed point)
        exact S.away_iff.2 hself
      have hbegun := S.begin hdone haway hfew
      change S.Sound (n + 1) ((lockState (P.step t choice m.lock p).1
        (Function.update point t .completed)).moveTo t
          (lockPoint P (.acquiring (left + 1) P.lockEntry))) at hbegun
      rwa [← lockState_update, Function.update_idem] at hbegun
  | rest =>
    obtain rfl : n' = n := Nat.add_right_cancel hcalls
    rw [← hw, Function.update_eq_self]
    exact hsound

end Advance

end Worker

/-! ### All workers -/

variable [Fintype ι]

/-- What is known of the workers when each has written the counter a number of times. -/
structure Tallied (S : P.Service) (increments : Nat) (m : WorkerMemory P.Memory)
    (point : ι → WorkerPoint P.Point) (tally : ι → Nat) : Prop where
  sound : S.Sound (∑ t, (tally t + (point t).pending)) (lockState m.lock point)
  fits : ∀ t, (point t).Fits S increments m.counter (tally t)
  counter : m.counter.toNat = ∑ t, tally t

/-- A sum of which one term changes. -/
theorem sum_update (f : ι → Nat) (t : ι) (n : Nat) :
    ∑ u, Function.update f t n u + f t = ∑ u, f u + n := by
  have hold := Finset.sum_erase_add Finset.univ f (Finset.mem_univ t)
  rw [Finset.sum_update_of_mem (Finset.mem_univ t), Finset.sdiff_singleton_eq_erase, ← hold]
  omega

namespace Tallied

variable {S : P.Service} {increments : Nat} {m : WorkerMemory P.Memory}
  {point : ι → WorkerPoint P.Point} {tally : ι → Nat}

theorem tally_le (h : Tallied S increments m point tally) (t : ι) : tally t ≤ increments :=
  Nat.le_of_add_right_le (h.fits t).tally_le

theorem counter_le (h : Tallied S increments m point tally) :
    m.counter.toNat ≤ Fintype.card ι * increments := by
  rw [h.counter]
  exact Finset.sum_le_card_nsmul _ _ _ fun t _ => h.tally_le t

/-- While a worker has increments to make the counter has room. -/
theorem counter_lt (h : Tallied S increments m point tally) {t : ι} (ht : tally t < increments) :
    m.counter.toNat < Fintype.card ι * increments := by
  rw [h.counter]
  refine Nat.lt_of_lt_of_le (Finset.sum_lt_sum (fun u _ => h.tally_le u) ⟨t, Finset.mem_univ t, ht⟩)
    (Nat.le_of_eq ?_)
  exact Finset.sum_const_nat fun _ _ => rfl

/-- The number of calls that take the lock is bounded by the number of increments. -/
theorem calls_le (h : ∀ t, (point t).Fits S increments m.counter (tally t)) :
    ∑ t, (tally t + (point t).pending) ≤ Fintype.card ι * increments :=
  Finset.sum_le_card_nsmul _ _ _ fun t _ => (h t).tally_le

/-- An access of one worker does what it does on its own. -/
theorem advance (h : Tallied S increments m point tally)
    (hfew : Fintype.card ι * increments < UInt64.size) (t : ι) (choice : P.Choice) :
    Advance S t choice m (point t) (workerAccess P t choice m (point t)).1
      (workerAccess P t choice m (point t)).2 :=
  (h.fits t).advance h.sound fun ht => Nat.lt_of_le_of_lt (h.counter_lt ht) hfew

/-- Every access of a worker is taken down rightly. -/
theorem access (h : Tallied S increments m point tally)
    (hfew : Fintype.card ι * increments < UInt64.size) (t : ι) (choice : P.Choice) :
    Tallied S increments (workerAccess P t choice m (point t)).1
      (Function.update point t (workerAccess P t choice m (point t)).2)
      (Function.update tally t
        (written (point t) (workerAccess P t choice m (point t)).2 (tally t))) := by
  have hadvance := h.advance hfew t choice
  generalize (workerAccess P t choice m (point t)).1 = m' at hadvance ⊢
  generalize (workerAccess P t choice m (point t)).2 = w' at hadvance ⊢
  have hfits : ∀ u, (Function.update point t w' u).Fits S increments m'.counter
      (Function.update tally t (written (point t) w' (tally t)) u) := by
    intro u
    rcases eq_or_ne u t with rfl | hu
    · rw [Function.update_self, Function.update_self]
      exact hadvance.fits (h.fits u)
    · rw [Function.update_of_ne hu, Function.update_of_ne hu]
      by_cases hstage : S.stage (lockPoint P (point t)) = .owning
      · -- the other worker does not own the lock as well
        refine (h.fits u).of_not_owning fun hu' => hu ?_
        exact S.unique h.sound hu' hstage
      · rw [hadvance.counter_of_not_owning (h.fits t) hstage]
        exact h.fits u
  refine ⟨?_, hfits, ?_⟩
  · refine hadvance.sound (h.fits t) h.sound ?_ (Nat.lt_of_le_of_lt (calls_le hfits) hfew)
    rw [← sum_update (fun u => tally u + (point u).pending) t]
    exact congrArg (· + _) (Finset.sum_congr rfl fun u _ =>
      Function.apply_update₂ (fun _ n w => n + WorkerPoint.pending w) tally point t _ _ u)
  · have hcounter : m'.counter.toNat + tally t =
        m.counter.toNat + written (point t) w' (tally t) := hadvance.counter_eq
    have hsum := sum_update tally t (written (point t) w' (tally t))
    rw [h.counter] at hcounter
    omega

end Tallied

/-! ### Every schedule -/

variable {increments : Nat}

/-- The tallies of an onlooker after a schedule. -/
def tallies (s : (workers P increments).State) (schedule : List (workers P increments).Move) :
    ι → Nat :=
  Program.watch (fun s m s' tally =>
    Function.update tally m.1 (written (s.point m.1) (s'.point m.1) (tally m.1))) s (fun _ => 0)
    schedule

/-- At the start nothing is written, and each worker has begun its first call, if it has any to
make. -/
theorem tallied_start (S : P.Service) (hfew : Fintype.card ι * increments < UInt64.size) :
    Tallied S increments ⟨P.memory, 0⟩ (fun _ : ι => nextIncrement P increments) fun _ => 0 := by
  have hcounter : (0 : UInt64).toNat = ∑ _t : ι, 0 := by rw [Finset.sum_const_zero]; rfl
  cases increments with
  | zero =>
    refine ⟨?_, fun t => rfl, hcounter⟩
    have hnone : ∑ _t : ι, (0 + (nextIncrement P 0).pending) = 0 :=
      Finset.sum_eq_zero fun _ _ => rfl
    rw [hnone]
    exact S.start
  | succ left =>
    refine ⟨?_, fun t => ⟨S.lockEntry, Nat.succ_pos left, Nat.zero_add _⟩, hcounter⟩
    have hcalls : ∑ _t : ι, (0 + (nextIncrement P (left + 1)).pending) =
        (Finset.univ : Finset ι).card := (Finset.card_eq_sum_ones _).symm
    have hbegun := S.sound_begun Finset.univ
      (Nat.lt_of_le_of_lt (Nat.le_mul_of_pos_right _ (Nat.succ_pos left)) hfew)
    simp only [Finset.mem_univ, if_true] at hbegun
    rw [hcalls]
    exact hbegun

/-- Whatever the schedule, the workers are as the onlooker's tallies say. -/
theorem tallied_run (S : P.Service) (hfew : Fintype.card ι * increments < UInt64.size)
    (schedule : List (workers P increments).Move) :
    Tallied S increments (Program.run (Program.start (workers P increments)) schedule).memory
      (Program.run (Program.start (workers P increments)) schedule).point
      (tallies (Program.start (workers P increments)) schedule) := by
  have hstart : Tallied S increments (Program.start (workers P increments)).memory
    (Program.start (workers P increments)).point fun _ => 0 := tallied_start S hfew
  refine Program.watch_of_step (I := fun s tally => Tallied S increments s.memory s.point tally)
    (fun s m tally h => ?_) hstart schedule
  have hafter := h.access hfew m.1 m.2
  simp only [Program.move_point_eq_update, Function.update_self]
  exact hafter

end Handoff.Bench
