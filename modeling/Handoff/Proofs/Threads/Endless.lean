import Mathlib.Data.Nat.Find
import Mathlib.Tactic.Choose
import Handoff.Threads.Basic

/-!
# Schedules without end

A schedule without end is fair if every thread moves again and again. That is not enough for work to
be done: a compare-and-swap may fail for no reason each time. So some moves are said to be *of use*,
and from some time on all are.

That work gets done along a fair schedule is shown with a `Program.Progress`. No move makes work.
While there is work, some thread is `Ready`: it is a number of its own moves away from doing some. The
moves of the others that do no work leave it so, and its own brings it, or some other thread, nearer
to doing some. Hence the work is done in the end (`Program.Progress.eventually_done`).
-/

namespace Handoff.Program

variable {ι : Type} {P : Program ι} [DecidableEq ι]

/-- The state after the first moves of a schedule without end. -/
def along (s : P.State) (schedule : Nat → P.Move) : Nat → P.State
  | 0 => s
  | n + 1 => move (along s schedule n) (schedule n)

/-- The first moves of a schedule without end are a schedule. -/
theorem along_eq_run (s : P.State) (schedule : Nat → P.Move) (n : Nat) :
    along s schedule n = run s ((List.range n).map schedule) := by
  induction n with
  | zero => rfl
  | succ n ih =>
    rw [along, ih, List.range_succ, List.map_append, run, run, List.foldl_append]
    rfl

/-- A schedule in which each thread moves again and again, and from some time on all moves are of
use. -/
structure Fair (OfUse : P.State → P.Move → Prop) (s : P.State) (schedule : Nat → P.Move) : Prop where
  moves : ∀ t n, ∃ k, n ≤ k ∧ (schedule k).1 = t
  ofUse : ∃ n, ∀ k, n ≤ k → OfUse (along s schedule k) (schedule k)

/-- The state after so many moves of threads that take turns and choose by the state. -/
def inTurn (s : P.State) (turn : Nat → ι) (pick : P.State → P.Choice) : Nat → P.State
  | 0 => s
  | n + 1 => move (inTurn s turn pick n) (turn n, pick (inTurn s turn pick n))

theorem along_inTurn (s : P.State) (turn : Nat → ι) (pick : P.State → P.Choice) (n : Nat) :
    along s (fun k => (turn k, pick (inTurn s turn pick k))) n = inTurn s turn pick n := by
  induction n with
  | zero => rfl
  | succ n ih => rw [along, ih, inTurn]

/-- If no state is without a choice of use, some schedule is fair: all threads take turns. -/
theorem exists_fair {threads : Nat} {P : Program (Fin threads)} (hpos : 0 < threads)
    {OfUse : P.State → P.Move → Prop} (huse : ∀ s, ∃ choice, ∀ t, OfUse s (t, choice))
    (s : P.State) : ∃ schedule, Fair OfUse s schedule := by
  choose pick hpick using huse
  let turn : Nat → Fin threads := fun k => ⟨k % threads, Nat.mod_lt k hpos⟩
  refine ⟨fun k => (turn k, pick (inTurn s turn pick k)), fun t n => ?_, 0, fun k _ => ?_⟩
  · refine ⟨threads * n + t, ?_, Fin.ext ?_⟩
    · exact Nat.le_trans (Nat.le_mul_of_pos_left n hpos) (Nat.le_add_right _ _)
    · exact (Nat.mul_add_mod threads n t).trans (Nat.mod_eq_of_lt t.isLt)
  · rw [along_inTurn]
    exact hpick _ _

/-- What shows that the work of a program gets done. -/
structure Progress (P : Program ι) where
  /-- What holds in every state. -/
  Good : P.State → Prop
  /-- The work to be done. -/
  work : P.State → Nat
  OfUse : P.State → P.Move → Prop
  /-- Whether a thread is so many moves away from doing some work. -/
  Ready : P.State → ι → Nat → Prop
  good_move {s : P.State} (h : Good s) (m : P.Move) : Good (move s m)
  work_move {s : P.State} (h : Good s) (m : P.Move) : work (move s m) ≤ work s
  exists_ready {s : P.State} (h : Good s) (hwork : work s ≠ 0) : ∃ t k, Ready s t k
  /-- A thread stays ready while others move. -/
  ready_other {s : P.State} {m : P.Move} {t : ι} {k : Nat} (h : Good s) (hready : Ready s t k)
    (hne : m.1 ≠ t) (hwork : work (move s m) = work s) : Ready (move s m) t k
  /-- A move of a thread that is ready does some work, or brings it nearer. -/
  ready_self {s : P.State} {m : P.Move} {k : Nat} (h : Good s) (huse : OfUse s m)
    (hready : Ready s m.1 k) (hwork : work (move s m) = work s) :
    ∃ u k', k' < k ∧ Ready (move s m) u k'

namespace Progress

variable (G : Progress P) {s : P.State} {schedule : Nat → P.Move}

theorem good_along (h : G.Good s) (n : Nat) : G.Good (along s schedule n) := by
  induction n with
  | zero => exact h
  | succ n ih => exact G.good_move ih (schedule n)

theorem work_along (h : G.Good s) {n k : Nat} (hle : n ≤ k) :
    G.work (along s schedule k) ≤ G.work (along s schedule n) := by
  induction hle with
  | refl => exact Nat.le_refl _
  | step _ ih => exact Nat.le_trans (G.work_move (G.good_along h _) _) ih

/-- As long as no work is done, a thread that is ready stays so up to its next move. -/
theorem ready_until (h : G.Good s) {n k d : Nat} {t : ι} (hready : G.Ready (along s schedule n) t d)
    (hle : n ≤ k) (hother : ∀ i, n ≤ i → i < k → (schedule i).1 ≠ t)
    (hidle : ∀ i, n ≤ i → G.work (along s schedule i) = G.work (along s schedule n)) :
    G.Ready (along s schedule k) t d := by
  induction hle with
  | refl => exact hready
  | @step i hle ih =>
    have hbefore := ih fun j hj hlt => hother j hj (Nat.lt_succ_of_lt hlt)
    have hsame : G.work (along s schedule (i + 1)) = G.work (along s schedule i) :=
      (hidle _ (Nat.le_succ_of_le hle)).trans (hidle i hle).symm
    exact G.ready_other (G.good_along h i) hbefore (hother i hle (Nat.lt_succ_self i)) hsame

/-- If a thread is ready, some work is done sooner or later. -/
theorem exists_work_lt_of_ready (h : G.Good s) (hfair : Fair G.OfUse s schedule) {n d : Nat} {t : ι}
    (huse : ∀ k, n ≤ k → G.OfUse (along s schedule k) (schedule k))
    (hready : G.Ready (along s schedule n) t d) :
    ∃ k, n ≤ k ∧ G.work (along s schedule k) < G.work (along s schedule n) := by
  induction d using Nat.strongRecOn generalizing n t with
  | ind d ih =>
    by_contra hnone
    have hidle : ∀ i, n ≤ i → G.work (along s schedule i) = G.work (along s schedule n) :=
      fun i hi => Nat.le_antisymm (G.work_along h hi)
        (Nat.not_lt.1 fun hlt => hnone ⟨i, hi, hlt⟩)
    -- the first move of the thread from now on
    have hmoves : ∃ k, n ≤ k ∧ (schedule k).1 = t := hfair.moves t n
    classical
    obtain ⟨hle, hself⟩ := Nat.find_spec hmoves
    have hfirst : ∀ i, n ≤ i → i < Nat.find hmoves → (schedule i).1 ≠ t :=
      fun i hi hlt he => Nat.find_min hmoves hlt ⟨hi, he⟩
    generalize Nat.find hmoves = k at hle hself hfirst
    have hthen := G.ready_until h hready hle hfirst hidle
    have hle' := Nat.le_succ_of_le hle
    have hsame : G.work (along s schedule (k + 1)) = G.work (along s schedule k) :=
      (hidle _ hle').trans (hidle k hle).symm
    subst hself
    obtain ⟨u, d', hlt, hready'⟩ := G.ready_self (G.good_along h k) (huse k hle) hthen hsame
    obtain ⟨i, hi, hwork⟩ := ih d' hlt (fun j hj => huse j (Nat.le_trans hle' hj)) hready'
    rw [hidle _ hle'] at hwork
    exact hnone ⟨i, Nat.le_trans hle' hi, hwork⟩

/-- Along a fair schedule all the work is done from some time on. -/
theorem eventually_done (h : G.Good s) (hfair : Fair G.OfUse s schedule) :
    ∃ n, ∀ k, n ≤ k → G.work (along s schedule k) = 0 := by
  obtain ⟨n₀, huse⟩ := hfair.ofUse
  -- the induction is on the work that is left at a time from which on all moves are of use
  suffices hall : ∀ w n, n₀ ≤ n → G.work (along s schedule n) = w →
      ∃ n, ∀ k, n ≤ k → G.work (along s schedule k) = 0 from hall _ n₀ (Nat.le_refl _) rfl
  intro w
  induction w using Nat.strongRecOn with
  | ind w ih =>
    intro n hn hw
    by_cases hzero : w = 0
    · refine ⟨n, fun k hk => Nat.eq_zero_of_le_zero ?_⟩
      rw [← hzero, ← hw]
      exact G.work_along h hk
    · rw [← hw] at hzero
      obtain ⟨t, d, hready⟩ := G.exists_ready (G.good_along h n) hzero
      obtain ⟨k, hk, hlt⟩ := G.exists_work_lt_of_ready h hfair
        (fun k hk => huse k (Nat.le_trans hn hk)) hready
      exact ih _ (hw ▸ hlt) k (Nat.le_trans hn hk) rfl

end Progress

end Handoff.Program
