import Handoff.Proofs.Bench.Counter
import Handoff.Proofs.Threads.Endless

/-!
# The workers of a benchmark complete

The work of a worker is the number of stages that it still has to go through, four for each
increment. An access gets it to the next stage, or it is one by which the worker waits in a call on
the lock (`Bench.Advance.lt_or_wait`). If the lock does not keep everybody waiting, then neither does
it keep everybody from getting to the next stage (`Bench.progress`), so along every fair schedule all
workers complete.
-/

namespace Handoff.Bench

/-- The number of stages that a worker has to go through up to its end. -/
def WorkerPoint.work {Q : Type} : WorkerPoint Q → Nat
  | .acquiring left _ => 4 * left
  | .reading left _ => 4 * left - 1
  | .writing left _ _ => 4 * left - 2
  | .releasing left _ => 4 * left - 3
  | .unwinding _ | .completed | .panicked => 0

variable {ι : Type} [DecidableEq ι] {P : LockCode ι}

/-- An access by which a worker waits in a call on the lock. -/
structure Wait (S : P.Service) (t : ι) (choice : P.Choice) (m : WorkerMemory P.Memory)
    (w : WorkerPoint P.Point) (m' : WorkerMemory P.Memory) (w' : WorkerPoint P.Point) : Prop where
  work : w'.work = w.work
  inCall : (S.stage (lockPoint P w)).inCall = true
  lock : m'.lock = (P.step t choice m.lock (lockPoint P w)).1
  point : lockPoint P w' = (P.step t choice m.lock (lockPoint P w)).2
  stage : S.stage (lockPoint P w') = S.stage (lockPoint P w)

section Worker

variable {S : P.Service} {t : ι} {choice : P.Choice} {m m' : WorkerMemory P.Memory}
  {w w' : WorkerPoint P.Point} {point : ι → WorkerPoint P.Point} {increments tally : Nat}

/-- A worker gets to the next stage, or waits, or has completed. -/
theorem Advance.lt_or_wait (h : Advance S t choice m w m' w')
    (hfits : w.Fits S increments m.counter tally) :
    w'.work < w.work ∨ Wait S t choice m w m' w' ∨ w = .completed ∧ m' = m ∧ w' = w := by
  cases h with
  | acquire hstage =>
    exact .inr (.inl ⟨rfl, hfits.inCall rfl, rfl, rfl, hstage.trans hfits.1.symm⟩)
  | enter hstage =>
    obtain ⟨-, hleft, -⟩ := hfits
    exact .inl (by simp only [WorkerPoint.work]; omega)
  | read =>
    obtain ⟨-, hleft, -⟩ := hfits
    exact .inl (by simp only [WorkerPoint.work]; omega)
  | write hcounter =>
    obtain ⟨-, hleft, -⟩ := hfits
    exact .inl (by simp only [WorkerPoint.work]; omega)
  | release hstage =>
    exact .inr (.inl ⟨rfl, hfits.inCall rfl, rfl, rfl, hstage.trans hfits.1.symm⟩)
  | @finish left p hentry =>
    obtain ⟨-, hleft, -⟩ := hfits
    match left with
    | 1 => exact .inl Nat.one_pos
    | left + 2 =>
      refine .inl ?_
      change 4 * (left + 1) < 4 * (left + 2) - 3
      omega
  | rest => exact .inr (.inr ⟨rfl, rfl, rfl⟩)

theorem Advance.work_le (h : Advance S t choice m w m' w')
    (hfits : w.Fits S increments m.counter tally) : w'.work ≤ w.work := by
  rcases h.lt_or_wait hfits with hlt | hwait | ⟨-, -, rfl⟩
  · exact Nat.le_of_lt hlt
  · exact Nat.le_of_eq hwait.work
  · exact Nat.le_refl _

/-- A worker that owns the lock gets to the next stage. -/
theorem Advance.work_lt_of_owning (h : Advance S t choice m w m' w')
    (hfits : w.Fits S increments m.counter tally) (hw : S.stage (lockPoint P w) = .owning) :
    w'.work < w.work := by
  rcases h.lt_or_wait hfits with hlt | hwait | ⟨rfl, -, -⟩
  · exact hlt
  · have hcall := hwait.inCall
    rw [hw] at hcall
    exact nomatch hcall
  · exact nomatch S.stage_entry.symm.trans hw

/-- A worker that still has some work to do owns the lock, or has a call under way. -/
theorem WorkerPoint.Fits.owning_or_inCall {counter : UInt64}
    (h : w.Fits S increments counter tally) (hwork : w.work ≠ 0) :
    S.stage (lockPoint P w) = .owning ∨ (S.stage (lockPoint P w)).inCall = true := by
  cases w with
  | acquiring left p | releasing left p => exact .inr (h.inCall rfl)
  | reading left p => exact .inl h.1
  | writing left p value => exact .inl h.1
  | _ => exact absurd rfl hwork

/-- A worker without work has completed. -/
theorem WorkerPoint.Fits.completed {counter : UInt64}
    (h : w.Fits S increments counter tally) (hwork : w.work = 0) : w = .completed := by
  cases w with
  | acquiring left p | reading left p | releasing left p =>
    obtain ⟨-, hleft, -⟩ := h
    simp only [WorkerPoint.work] at hwork
    omega
  | writing left p value =>
    obtain ⟨-, hleft, -⟩ := h
    simp only [WorkerPoint.work] at hwork
    omega
  | completed => rfl
  | unwinding p => exact h.elim
  | panicked => exact h.elim

/-- A worker that waits moves in the code of the lock. -/
theorem Wait.lockState_eq (h : Wait S t choice m (point t) m' w') :
    lockState m'.lock (Function.update point t w') =
      Program.move (lockState m.lock point) (t, choice) := by
  rw [h.lock]
  exact lockState_move rfl h.point

theorem Wait.stage_eq (h : Wait S t choice m (point t) m' w') :
    S.stage ((Program.move (lockState m.lock point) (t, choice)).point t) =
      S.stage ((lockState m.lock point).point t) := by
  rw [← h.lockState_eq]
  have hself : lockPoint P (Function.update point t w' t) = lockPoint P w' :=
    congrArg (lockPoint P) (Function.update_self t w' point)
  exact (congrArg S.stage hself).trans h.stage

end Worker

/-! ### All workers -/

variable [Fintype ι] {increments : Nat}

/-- The work of all workers after one of them has moved. -/
theorem sum_work_update (point : ι → WorkerPoint P.Point) (t : ι) (w : WorkerPoint P.Point) :
    ∑ u, (Function.update point t w u).work + (point t).work = ∑ u, (point u).work + w.work := by
  rw [← sum_update (fun u => (point u).work) t]
  exact congrArg (· + _) (Finset.sum_congr rfl fun u _ =>
    Function.apply_update (fun _ => WorkerPoint.work) point t w u)

theorem work_eq_of_sum_eq {point : ι → WorkerPoint P.Point} {t : ι} {w : WorkerPoint P.Point}
    (h : ∑ u, (Function.update point t w u).work = ∑ u, (point u).work) :
    w.work = (point t).work := by
  have hsum := sum_work_update point t w
  omega

section Ready

variable {S : P.PromptService} {m m' : WorkerMemory P.Memory} {point : ι → WorkerPoint P.Point}
  {w' : WorkerPoint P.Point} {tally : ι → Nat} {t u : ι} {choice : P.Choice} {k : Nat}

/-- Whether a worker is so many moves away from the next stage. One that owns the lock gets there by
any move. -/
def Ready (S : P.PromptService) (lock : P.Memory) (point : ι → WorkerPoint P.Point) (t : ι)
    (k : Nat) : Prop :=
  S.stage (lockPoint P (point t)) = .owning ∨ S.Ready (lockState lock point) t k

/-- As long as there is work, some worker is ready. -/
theorem Tallied.exists_ready (h : Tallied S.toService increments m point tally)
    (hwork : ∑ t, (point t).work ≠ 0) : ∃ t k, Ready S m.lock point t k := by
  by_cases howned : ∃ u, S.stage (lockPoint P (point u)) = .owning
  · obtain ⟨u, hu⟩ := howned
    exact ⟨u, 0, .inl hu⟩
  · obtain ⟨t, -, ht⟩ := Finset.exists_ne_zero_of_sum_ne_zero hwork
    have hnone : ∀ u, S.stage (lockPoint P (point u)) ≠ .owning := fun u hu => howned ⟨u, hu⟩
    have hcall := ((h.fits t).owning_or_inCall ht).resolve_left (hnone t)
    obtain ⟨u, k, hready⟩ := S.exists_ready h.sound hnone hcall
    exact ⟨u, k, .inr hready⟩

/-- A worker stays ready while another one waits or has completed. -/
theorem Ready.other (hready : Ready S m.lock point u k) (hne : t ≠ u)
    (h : Tallied S.toService increments m point tally)
    (hadvance : Advance S.toService t choice m (point t) m' w')
    (hwork : w'.work = (point t).work) :
    Ready S m'.lock (Function.update point t w') u k := by
  rcases hready with howning | hready
  · refine .inl ?_
    rw [Function.update_of_ne hne.symm]
    exact howning
  · refine .inr ?_
    rcases hadvance.lt_or_wait (h.fits t) with hlt | hwait | ⟨-, rfl, rfl⟩
    · exact absurd hwork (Nat.ne_of_lt hlt)
    · rw [hwait.lockState_eq]
      exact S.ready_other h.sound hready hne hwait.inCall hwait.stage_eq
    · rw [Function.update_eq_self]
      exact hready

/-- A worker that is ready and waits brings some worker nearer to the next stage. -/
theorem Ready.self (hready : Ready S m.lock point t k)
    (h : Tallied S.toService increments m point tally) (huse : S.OfUse m.lock choice)
    (hadvance : Advance S.toService t choice m (point t) m' w')
    (hwork : w'.work = (point t).work) :
    ∃ u k', k' < k ∧ Ready S m'.lock (Function.update point t w') u k' := by
  rcases hready with howning | hready
  · exact absurd hwork (Nat.ne_of_lt (hadvance.work_lt_of_owning (h.fits t) howning))
  · rcases hadvance.lt_or_wait (h.fits t) with hlt | hwait | ⟨hdone, -, -⟩
    · exact absurd hwork (Nat.ne_of_lt hlt)
    · obtain ⟨u, k', hlt, hready'⟩ :=
        S.ready_self h.sound (m := (t, choice)) huse hready hwait.stage_eq
      rw [← hwait.lockState_eq] at hready'
      exact ⟨u, k', hlt, .inr hready'⟩
    · -- a worker that has completed has no call under way
      have hcall := S.inCall hready
      have hentry : (lockState m.lock point).point t = P.entry := congrArg (lockPoint P) hdone
      rw [hentry, S.stage_entry] at hcall
      exact nomatch hcall

end Ready

/-- The work of the workers gets done. -/
def progress (S : P.PromptService) (hfew : Fintype.card ι * increments < UInt64.size) :
    (workers P increments).Progress where
  Good s := ∃ tally, Tallied S.toService increments s.memory s.point tally
  work s := ∑ t, WorkerPoint.work (s.point t)
  OfUse s m := S.OfUse s.memory.lock m.2
  Ready s t k := Ready S s.memory.lock s.point t k
  good_move {s} h m := by
    obtain ⟨tally, h⟩ := h
    rw [Program.move_point_eq_update]
    exact ⟨_, h.access hfew m.1 m.2⟩
  work_move {s} h m := by
    obtain ⟨tally, h⟩ := h
    have hle := (h.advance hfew m.1 m.2).work_le (h.fits m.1)
    have hsum := sum_work_update s.point m.1 (workerAccess P m.1 m.2 s.memory (s.point m.1)).2
    rw [Program.move_point_eq_update]
    exact Nat.le_of_add_le_add_right (hsum.le.trans (Nat.add_le_add_left hle _))
  exists_ready h hwork := by
    obtain ⟨tally, h⟩ := h
    exact h.exists_ready hwork
  ready_other {s m t k} h hready hne hwork := by
    obtain ⟨tally, h⟩ := h
    rw [Program.move_point_eq_update] at hwork ⊢
    exact hready.other hne h (h.advance hfew m.1 m.2) (work_eq_of_sum_eq hwork)
  ready_self {s m k} h huse hready hwork := by
    obtain ⟨tally, h⟩ := h
    rw [Program.move_point_eq_update] at hwork ⊢
    exact hready.self h huse (h.advance hfew m.1 m.2) (work_eq_of_sum_eq hwork)

/-- Along every fair schedule all workers complete. -/
theorem eventually_completed (S : P.PromptService)
    (hfew : Fintype.card ι * increments < UInt64.size) {schedule : Nat → (workers P increments).Move}
    (hfair : Program.Fair (fun (s : (workers P increments).State) m => S.OfUse s.memory.lock m.2)
      (Program.start (workers P increments)) schedule) :
    ∃ n, ∀ k, n ≤ k → ∀ t,
      (Program.along (Program.start (workers P increments)) schedule k).point t = .completed := by
  have hgood : (progress S hfew).Good (Program.start (workers P increments)) :=
    ⟨_, tallied_start S.toService hfew⟩
  obtain ⟨n, hdone⟩ := (progress S hfew).eventually_done hgood hfair
  refine ⟨n, fun k hk t => ?_⟩
  obtain ⟨tally, h⟩ : ∃ tally, Tallied S.toService increments
      (Program.along (Program.start (workers P increments)) schedule k).memory
      (Program.along (Program.start (workers P increments)) schedule k).point tally :=
    (progress S hfew).good_along hgood k
  exact (h.fits t).completed (Finset.sum_eq_zero_iff.1 (hdone k hk) t (Finset.mem_univ t))

end Handoff.Bench
