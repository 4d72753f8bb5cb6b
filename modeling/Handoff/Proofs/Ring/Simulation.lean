import Mathlib.Logic.Basic
import Handoff.Ring.Script

/-!
# Rings that answer alike

A `Simulation` between two kinds of rings is a relation on their states that a single push and a
single pop keep, both sides giving the same answer. From these two steps it carries over to all that
can happen to a ring: the halves of a split, repeated pushes and pops, transfers, and whole scripts
(`Simulation.runAll`). It also carries over to the values that are left at the end
(`Simulation.leftovers_eq`).
-/

namespace Handoff

variable {R S α β : Type}

/-- Two outcomes have the same answer, and states that are related by `rel`. -/
def Alike (rel : R → S → Prop) (x : β × R) (y : β × S) : Prop :=
  x.1 = y.1 ∧ rel x.2 y.2

theorem Alike.exists_eq {rel : R → S → Prop} {x : β × R} {y : β × S} (h : Alike rel x y) :
    ∃ answer r s, x = (answer, r) ∧ y = (answer, s) ∧ rel r s :=
  ⟨x.1, x.2, y.2, rfl, Prod.ext h.1.symm rfl, h.2⟩

variable [Spsc R α] [Spsc S α]

/-- The values found by popping until the ring is empty, one pop at a time. -/
theorem Spsc.drain?_succ (ring : R) (patience : Nat) :
    (Spsc.drain? (patience + 1) ring).map Prod.fst =
      match Spsc.pop ring with
      | (none, _) => some []
      | (some value, rest) =>
        ((Spsc.drain? patience rest).map Prod.fst).map (value :: ·) := by
  rw [Spsc.drain?]
  rcases Spsc.pop ring with ⟨_ | value, rest⟩
  · rfl
  · cases hrest : Spsc.drain? patience rest <;> simp [hrest]

/-- A relation between the states of two kinds of rings that push and pop keep. -/
structure Simulation (rel : R → S → Prop) : Prop where
  capacity_eq : ∀ {r s}, rel r s → Spsc.capacity r = Spsc.capacity s
  size_eq : ∀ {r s}, rel r s → Spsc.size r = Spsc.size s
  push : ∀ {r s}, rel r s → ∀ value, Alike rel (Spsc.push r value) (Spsc.push s value)
  pop : ∀ {r s}, rel r s → Alike rel (Spsc.pop r) (Spsc.pop s)

namespace Simulation

variable {rel : R → S → Prop} {r : R} {s : S}

/-! ### Halves -/

/-- One step through a half. -/
theorem halfStep (h : Simulation rel) (hrel : rel r s) (step : HalfStep α) :
    Alike (fun x y => rel x.join y.join) (step.run ⟨r⟩) (step.run ⟨s⟩) := by
  cases step with
  | push value =>
    obtain ⟨hanswer, hrel'⟩ := h.push hrel value
    exact ⟨congrArg HalfAnswer.pushed hanswer, hrel'⟩
  | pop =>
    obtain ⟨hanswer, hrel'⟩ := h.pop hrel
    exact ⟨congrArg HalfAnswer.popped hanswer, hrel'⟩
  | capacity =>
    have hcap := h.capacity_eq hrel
    exact ⟨congrArg₂ HalfAnswer.capacities hcap hcap, hrel⟩

/-- Any number of steps through the halves. -/
theorem halfSteps (h : Simulation rel) (hrel : rel r s) (steps : List (HalfStep α)) :
    Alike (fun x y => rel x.join y.join) (HalfStep.runAll ⟨r⟩ steps)
      (HalfStep.runAll ⟨s⟩ steps) := by
  induction steps generalizing r s with
  | nil => exact ⟨rfl, hrel⟩
  | cons step steps ih =>
    obtain ⟨hanswer, hrel'⟩ := h.halfStep hrel step
    obtain ⟨hanswers, hrel''⟩ := ih hrel'
    exact ⟨congrArg₂ List.cons hanswer hanswers, hrel''⟩

/-! ### Repeated pushes and pops -/

theorem pushMany (h : Simulation rel) (hrel : rel r s) (values : List α) :
    Alike rel (Spsc.pushMany r values) (Spsc.pushMany s values) := by
  induction values generalizing r s with
  | nil => exact ⟨rfl, hrel⟩
  | cons value values ih =>
    obtain ⟨answer, r', s', hr, hs, hrel'⟩ := (h.push hrel value).exists_eq
    rw [Spsc.pushMany, Spsc.pushMany, hr, hs]
    cases answer with
    | accepted => exact ih hrel'
    | refused back =>
      obtain ⟨hrefused, hrel''⟩ := ih hrel'
      exact ⟨congrArg (back :: ·) hrefused, hrel''⟩

theorem popMany (h : Simulation rel) (hrel : rel r s) (times : Nat) :
    Alike rel (Spsc.popMany r times) (Spsc.popMany s times) := by
  induction times generalizing r s with
  | zero => exact ⟨rfl, hrel⟩
  | succ times ih =>
    obtain ⟨hvalue, hrel'⟩ := h.pop hrel
    obtain ⟨hvalues, hrel''⟩ := ih hrel'
    exact ⟨congrArg₂ List.cons hvalue hvalues, hrel''⟩

/-- Popping until the ring is empty takes equally many pops on both sides and finds the same
values. -/
theorem drain?_eq (h : Simulation rel) (hrel : rel r s) (patience : Nat) :
    (Spsc.drain? patience r).map Prod.fst = (Spsc.drain? patience s).map Prod.fst := by
  induction patience generalizing r s with
  | zero => rfl
  | succ patience ih =>
    obtain ⟨value, r', s', hr, hs, hrel'⟩ := (h.pop hrel).exists_eq
    rw [Spsc.drain?_succ, Spsc.drain?_succ, hr, hs]
    cases value with
    | none => rfl
    | some value => exact congrArg (Option.map (value :: ·)) (ih hrel')

/-- A ring that is dropped drops what the ring related to it does. -/
theorem leftovers_eq (h : Simulation rel) (hrel : rel r s) :
    Spsc.leftovers r = Spsc.leftovers s := by
  rw [Spsc.leftovers, Spsc.leftovers, h.capacity_eq hrel, h.drain?_eq hrel]

/-! ### Transfers -/

/-- Transfers over related rings that have come equally far. -/
structure SameTransfer (rel : R → S → Prop) (t : Transfer R α) (u : Transfer S α) : Prop where
  ring : rel t.ring u.ring
  unsent : t.unsent = u.unsent
  got : t.got = u.got
  missing : t.missing = u.missing

theorem start (h : Simulation rel) (hrel : rel r s) (values : List α) :
    SameTransfer rel (Transfer.start r values) (Transfer.start s values) :=
  ⟨hrel, rfl, rfl, congrArg (· + values.length) (h.size_eq hrel)⟩

/-- One attempt of either side. -/
theorem attempt (h : Simulation rel) {t : Transfer R α} {u : Transfer S α}
    (htu : SameTransfer rel t u) (side : Side) :
    SameTransfer rel (t.attempt side) (u.attempt side) := by
  obtain ⟨r, unsent, got, missing⟩ := t
  obtain ⟨s, _, _, _⟩ := u
  obtain ⟨hrel, rfl, rfl, rfl⟩ := htu
  cases side with
  | producer =>
    cases unsent with
    | nil => exact ⟨hrel, rfl, rfl, rfl⟩
    | cons value rest =>
      obtain ⟨answer, r', s', hr, hs, hrel'⟩ := (h.push hrel value).exists_eq
      simp only [Transfer.attempt, hr, hs]
      cases answer <;> exact ⟨hrel', rfl, rfl, rfl⟩
  | consumer =>
    cases missing with
    | zero => exact ⟨hrel, rfl, rfl, rfl⟩
    | succ missing =>
      obtain ⟨value, r', s', hr, hs, hrel'⟩ := (h.pop hrel).exists_eq
      simp only [Transfer.attempt, hr, hs]
      cases value <;> exact ⟨hrel', rfl, rfl, rfl⟩

/-- Any schedule of attempts. -/
theorem transfer (h : Simulation rel) {t : Transfer R α} {u : Transfer S α}
    (htu : SameTransfer rel t u) (schedule : List Side) :
    SameTransfer rel (t.run schedule) (u.run schedule) := by
  induction schedule generalizing t u with
  | nil => exact htu
  | cons side schedule ih => exact ih (h.attempt htu side)

theorem alternate (h : Simulation rel) {t : Transfer R α} {u : Transfer S α}
    (htu : SameTransfer rel t u) : SameTransfer rel t.alternate u.alternate := by
  rw [Transfer.alternate, Transfer.alternate, htu.missing]
  exact h.transfer htu _

/-! ### Scripts -/

/-- One step of a script. -/
theorem step (h : Simulation rel) (hrel : rel r s) (step : RingStep α) :
    Alike rel (step.run r) (step.run s) := by
  cases step with
  | push value =>
    obtain ⟨hanswer, hrel'⟩ := h.push hrel value
    exact ⟨congrArg RingAnswer.pushed hanswer, hrel'⟩
  | pop =>
    obtain ⟨hvalue, hrel'⟩ := h.pop hrel
    exact ⟨congrArg RingAnswer.popped hvalue, hrel'⟩
  | capacity => exact ⟨congrArg RingAnswer.capacity (h.capacity_eq hrel), hrel⟩
  | pushMany values =>
    obtain ⟨hrefused, hrel'⟩ := h.pushMany hrel values
    exact ⟨congrArg RingAnswer.givenBack hrefused, hrel'⟩
  | popMany times =>
    obtain ⟨hvalues, hrel'⟩ := h.popMany hrel times
    exact ⟨congrArg RingAnswer.poppedMany hvalues, hrel'⟩
  | split steps =>
    obtain ⟨hanswers, hrel'⟩ := h.halfSteps hrel steps
    exact ⟨congrArg RingAnswer.halves hanswers, hrel'⟩
  | transfer values =>
    have hdone := h.alternate (h.start hrel values)
    obtain ⟨hextra, hrel'⟩ := h.pop hdone.ring
    exact ⟨congrArg₂ RingAnswer.transferred hdone.got (congrArg Option.isSome hextra), hrel'⟩

/-- **Scripts.** Related rings answer alike to every script, and are related after it. -/
theorem runAll (h : Simulation rel) (hrel : rel r s) (steps : List (RingStep α)) :
    Alike rel (RingStep.runAll r steps) (RingStep.runAll s steps) := by
  induction steps generalizing r s with
  | nil => exact ⟨rfl, hrel⟩
  | cons step steps ih =>
    obtain ⟨hanswer, hrel'⟩ := h.step hrel step
    obtain ⟨hanswers, hrel''⟩ := ih hrel'
    exact ⟨congrArg₂ List.cons hanswer hanswers, hrel''⟩

end Simulation

end Handoff
