import Mathlib.Logic.Basic
import Handoff.Threads.Basic

/-!
# Mutual exclusion

A lock that threads use access by access has at most one owner, and it is free if it has none
(`Program.Exclusive`). That follows from what each access does by itself: it leaves the lock and its
own thread's standing as they are, or it takes the free lock for its own thread, or it gives up the
lock that its own thread owns (`Program.Handover`). Nothing about the other threads has to be looked
at; they may stand anywhere in their code (`Program.Exclusive.move`).
-/

namespace Handoff.Program

variable {ι : Type} {P : Program ι}

/-- What an access does to whether the lock is free and to whether the thread that makes it is an
owner: both before the access, and both after it. -/
inductive Handover : (free owns free' owns' : Bool) → Prop
  | keep {free owns : Bool} : Handover free owns free owns
  | take : Handover true false false true
  | giveUp : Handover false true true false

/-- A lock that has at most one owner, and is free exactly if it has none. -/
structure Exclusive (free : P.Memory → Bool) (owns : P.Point → Bool) (s : P.State) : Prop where
  unique : ∀ {t u}, owns (s.point t) = true → owns (s.point u) = true → t = u
  free_iff : free s.memory = true ↔ ∀ t, owns (s.point t) = false

namespace Exclusive

variable {free : P.Memory → Bool} {owns : P.Point → Bool} {s : P.State}

/-- Beside an owner nobody owns the lock. -/
theorem not_owner (h : Exclusive free owns s) {t u : ι} (ht : owns (s.point t) = true)
    (hne : u ≠ t) : owns (s.point u) = false := by
  rw [Bool.eq_false_iff]
  intro hu
  exact hne (h.unique hu ht)

/-- At the start nobody owns the lock. -/
theorem start (hfree : free P.memory = true) (howns : owns P.entry = false) :
    Exclusive free owns (Program.start P) := by
  refine ⟨fun {t u} ht _ => ?_, iff_of_true hfree fun _ => howns⟩
  exact absurd (howns.symm.trans ht) Bool.false_ne_true

/-- Every access that hands the lock over properly, or leaves it alone, keeps mutual exclusion. -/
theorem move [DecidableEq ι] (h : Exclusive free owns s) {m : P.Move}
    (hmove : Handover (free s.memory) (owns (s.point m.1)) (free (move s m).memory)
      (owns ((Program.move s m).point m.1))) :
    Exclusive free owns (Program.move s m) := by
  have hother : ∀ u, u ≠ m.1 → owns ((Program.move s m).point u) = owns (s.point u) := by
    intro u hu
    rw [move_point_of_ne s hu]
  generalize hf : free s.memory = f, ho : owns (s.point m.1) = o,
    hf' : free (Program.move s m).memory = f', ho' : owns ((Program.move s m).point m.1) = o'
    at hmove
  cases hmove with
  | keep =>
    have hsame : ∀ u, owns ((Program.move s m).point u) = owns (s.point u) := by
      intro u
      rcases eq_or_ne u m.1 with rfl | hu
      · rw [ho, ho']
      · exact hother u hu
    refine ⟨fun {t u} ht hu => ?_, ?_⟩
    · rw [hsame] at ht hu
      exact h.unique ht hu
    · rw [hf', ← hf, h.free_iff]
      exact forall_congr' fun u => by rw [hsame]
  | take =>
    -- the lock was free, so the thread that took it is the only owner
    have hnone := h.free_iff.1 hf
    have honly : ∀ u, owns ((Program.move s m).point u) = true → u = m.1 := by
      intro u hu
      rcases eq_or_ne u m.1 with rfl | hne
      · rfl
      · rw [hother u hne, hnone u] at hu
        contradiction
    refine ⟨fun {t u} ht hu => (honly t ht).trans (honly u hu).symm, ?_⟩
    rw [hf']
    refine iff_of_false Bool.false_ne_true fun hfree => ?_
    rw [hfree m.1] at ho'
    contradiction
  | giveUp =>
    have hnone : ∀ u, owns ((Program.move s m).point u) = false := by
      intro u
      rcases eq_or_ne u m.1 with rfl | hu
      · exact ho'
      · rw [hother u hu]
        exact h.not_owner ho hu
    refine ⟨fun {t u} ht _ => ?_, iff_of_true hf' hnone⟩
    rw [hnone t] at ht
    contradiction

end Exclusive

end Handoff.Program
