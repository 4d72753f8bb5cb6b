import Handoff.Proofs.Ring.BoundedFifo
import Handoff.Ring.Recorded

/-!
# What the answers of a ring tell

Whoever uses a ring knows what has been put in and what has come out without keeping a record: it can
be read off the steps of a script and the answers to them (`RingStep.offered`, `RingStep.accepted`,
`RingAnswer.received`, `RingAnswer.returned`). That is what the record of the ring says, too
(`Recorded.tells_runAll`). A ring that has refused a value refuses those that are pushed right behind
it, so of many values it has accepted those in front. Only of a transfer the answer does not tell all.
-/

namespace Handoff

variable {R α : Type}

/-! ### Reading answers -/

/-- The value that a step through a half is called with. -/
def HalfStep.offered : HalfStep α → List α
  | .push value => [value]
  | _ => []

/-- The value that a step through a half has left in the ring. -/
def HalfStep.accepted : HalfStep α → HalfAnswer α → List α
  | .push value, .pushed .accepted => [value]
  | _, _ => []

/-- The value that a step through a half has taken out of the ring. -/
def HalfAnswer.received : HalfAnswer α → List α
  | .popped (some value) => [value]
  | _ => []

/-- The value that a step through a half has given back. -/
def HalfAnswer.returned : HalfAnswer α → List α
  | .pushed (.refused value) => [value]
  | _ => []

/-- The values that a step is called with. -/
def RingStep.offered : RingStep α → List α
  | .push value => [value]
  | .pushMany values => values
  | .split steps => steps.flatMap HalfStep.offered
  | _ => []

/-- The values that a step has left in the ring. -/
def RingStep.accepted : RingStep α → RingAnswer α → List α
  | .push value, .pushed .accepted => [value]
  | .pushMany values, .givenBack refused => values.take (values.length - refused.length)
  | .split steps, .halves answers => (List.zipWith HalfStep.accepted steps answers).flatten
  | _, _ => []

/-- The values that a step has taken out of the ring. -/
def RingAnswer.received : RingAnswer α → List α
  | .popped found => found.toList
  | .poppedMany found => found.flatMap Option.toList
  | .halves answers => answers.flatMap HalfAnswer.received
  | _ => []

/-- The values that a step has given back. -/
def RingAnswer.returned : RingAnswer α → List α
  | .pushed (.refused value) => [value]
  | .givenBack values => values
  | .halves answers => answers.flatMap HalfAnswer.returned
  | _ => []

/-- Whether a step sends values through the ring to another thread. -/
def RingStep.isTransfer : RingStep α → Bool
  | .transfer _ => true
  | _ => false

/-! ### The record -/

namespace Recorded

/-- Between two states of a ring with a record, so many values have been offered, accepted, received
and given back. -/
structure Tells (l l' : Recorded R α) (offered accepted received givenBack : List α) : Prop where
  offered : l'.offered = l.offered ++ offered
  accepted : l'.accepted = l.accepted ++ accepted
  received : l'.received = l.received ++ received
  givenBack : l'.givenBack = l.givenBack ++ givenBack

theorem Tells.refl (l : Recorded R α) : Tells l l [] [] [] [] := by
  constructor <;> simp

variable {l l' l'' : Recorded R α} {offered offered' accepted accepted' : List α}
  {received received' givenBack givenBack' : List α}

theorem Tells.trans (h : Tells l l' offered accepted received givenBack)
    (h' : Tells l' l'' offered' accepted' received' givenBack') :
    Tells l l'' (offered ++ offered') (accepted ++ accepted') (received ++ received')
      (givenBack ++ givenBack') := by
  constructor
  · rw [h'.offered, h.offered, List.append_assoc]
  · rw [h'.accepted, h.accepted, List.append_assoc]
  · rw [h'.received, h.received, List.append_assoc]
  · rw [h'.givenBack, h.givenBack, List.append_assoc]

theorem tells_note (l : Recorded R α) (ring : R) (deed : RingDeed α) :
    Tells l (l.note ring deed) deed.offered?.toList deed.accepted?.toList deed.received?.toList
      deed.givenBack?.toList :=
  ⟨offered_note l ring deed, accepted_note l ring deed, received_note l ring deed,
    givenBack_note l ring deed⟩

variable [Spsc R α]

/-- A ring does not notice that a record is kept. -/
theorem simulation_ring : Simulation fun (l : Recorded R α) (r : R) => l.ring = r where
  capacity_eq := by rintro l _ rfl; rfl
  size_eq := by rintro l _ rfl; rfl
  push := by rintro l _ rfl value; exact ⟨rfl, rfl⟩
  pop := by rintro l _ rfl; exact ⟨rfl, rfl⟩

theorem push_eq (l : Recorded R α) (value : α) :
    Spsc.push l value = ((Spsc.push l.ring value).1,
      l.note (Spsc.push l.ring value).2 (.push value (Spsc.push l.ring value).1)) :=
  rfl

theorem tells_push (l : Recorded R α) (value : α) :
    Tells l (Spsc.push l value).2 [value]
      (HalfStep.accepted (.push value) (.pushed (Spsc.push l value).1)) []
      (HalfAnswer.returned (.pushed (Spsc.push l value).1)) := by
  have h := l.tells_note (Spsc.push l.ring value).2 (.push value (Spsc.push l.ring value).1)
  change Tells l (l.note _ _) [value]
    (HalfStep.accepted _ (.pushed (Spsc.push l.ring value).1)) []
    (HalfAnswer.returned (.pushed (Spsc.push l.ring value).1))
  cases hpush : (Spsc.push l.ring value).1 <;> rw [hpush] at h <;> exact h

theorem tells_pop (l : Recorded R α) : Tells l (Spsc.pop l).2 [] [] (Spsc.pop l).1.toList [] :=
  l.tells_note (Spsc.pop l.ring).2 (.pop (Spsc.pop l.ring).1)

/-! ### Steps -/

theorem tells_halfStep (l : Recorded R α) (step : HalfStep α) :
    let (answer, halves) := step.run (Halves.split l)
    Tells l halves.join step.offered (step.accepted answer) answer.received answer.returned := by
  cases step with
  | push value => exact l.tells_push value
  | pop =>
    have h := l.tells_pop
    change Tells l (Spsc.pop l).2 [] [] (HalfAnswer.received (.popped (Spsc.pop l).1)) []
    cases hpop : (Spsc.pop l).1 <;> rw [hpop] at h <;> exact h
  | capacity => exact .refl l

theorem tells_halfSteps (l : Recorded R α) (steps : List (HalfStep α)) :
    let (answers, halves) := HalfStep.runAll (Halves.split l) steps
    Tells l halves.join (steps.flatMap HalfStep.offered)
      (List.zipWith HalfStep.accepted steps answers).flatten
      (answers.flatMap HalfAnswer.received) (answers.flatMap HalfAnswer.returned) := by
  induction steps generalizing l with
  | nil => exact .refl l
  | cons step steps ih => exact (l.tells_halfStep step).trans (ih _)

theorem tells_popMany (l : Recorded R α) (times : Nat) :
    Tells l (Spsc.popMany l times).2 [] []
      ((Spsc.popMany l times).1.flatMap Option.toList) [] := by
  induction times generalizing l with
  | zero => exact .refl l
  | succ times ih => exact l.tells_pop.trans (ih _)

end Recorded

/-- No more values are given back than were pushed. -/
theorem Spsc.length_pushMany_le [Spsc R α] (ring : R) (values : List α) :
    (Spsc.pushMany ring values).1.length ≤ values.length := by
  induction values generalizing ring with
  | nil => exact Nat.le_refl 0
  | cons value values ih =>
    rw [Spsc.pushMany]
    split
    · exact Nat.le_succ_of_le (ih _)
    · exact Nat.succ_le_succ (ih _)

/-- A list that has refused a value refuses all those behind it. -/
theorem Fifo.pushMany_of_refused {q q' : Fifo α} {value back : α}
    (h : q.push value = (.refused back, q')) (values : List α) :
    Spsc.pushMany q' values = (values, q') := by
  rw [Fifo.push] at h
  split at h
  · cases h
  next hfull =>
    obtain rfl : q = q' := congrArg Prod.snd h
    induction values with
    | nil => rfl
    | cons next values ih =>
      have hpush : Spsc.push q next = (.refused next, q) := if_neg hfull
      rw [Spsc.pushMany, hpush]
      simp only [ih]

namespace Recorded

variable [Spsc R α] {rel : R → Fifo α → Prop} {l : Recorded R α} {q : Fifo α}

/-- Many values are accepted up to the first that is refused. -/
theorem tells_pushMany (h : Simulation rel) (hrel : rel l.ring q) (values : List α) :
    let (refused, l') := Spsc.pushMany l values
    Tells l l' values (values.take (values.length - refused.length)) [] refused := by
  induction values generalizing l q with
  | nil => exact .refl l
  | cons value values ih =>
    obtain ⟨answer, r, q', hr, hq, hrel'⟩ := (h.push hrel value).exists_eq
    have htells := l.tells_push value
    rw [push_eq, hr] at htells
    rw [Spsc.pushMany, push_eq, hr]
    dsimp only at htells ⊢
    obtain ⟨l', hl'⟩ : ∃ l', l.note r (.push value answer) = l' := ⟨_, rfl⟩
    rw [hl'] at htells ⊢
    have hring : l'.ring = r := hl' ▸ rfl
    have hrest := ih (hring ▸ hrel')
    cases answer with
    | accepted =>
      have hle := Spsc.length_pushMany_le l' values
      dsimp only at hrest ⊢
      rw [List.length_cons, Nat.succ_sub hle, List.take_succ_cons]
      exact htells.trans hrest
    | refused back =>
      -- what has refused one value refuses the others as well
      have hothers : (Spsc.pushMany l' values).1 = values := by
        rw [(simulation_ring.pushMany hring values).1, (h.pushMany hrel' values).1,
          Fifo.pushMany_of_refused hq]
      dsimp only at hrest ⊢
      rw [hothers, Nat.sub_self] at hrest
      rw [hothers, List.length_cons, List.length_cons, Nat.sub_self]
      exact htells.trans hrest

/-- The record grows by what the answer to a step tells. -/
theorem tells_step (h : Simulation rel) (hrel : rel l.ring q) {step : RingStep α}
    (hstep : step.isTransfer = false) :
    let (answer, l') := step.run l
    Tells l l' step.offered (step.accepted answer) answer.received answer.returned := by
  cases step with
  | push value =>
    have htells := l.tells_push value
    change Tells l (Spsc.push l value).2 [value]
      (RingStep.accepted _ (.pushed (Spsc.push l value).1)) [] (RingAnswer.returned (.pushed (Spsc.push l value).1))
    cases hpush : (Spsc.push l value).1 <;> rw [hpush] at htells <;> exact htells
  | pop => exact l.tells_pop
  | capacity => exact .refl l
  | pushMany values => exact tells_pushMany h hrel values
  | popMany times => exact l.tells_popMany times
  | split steps => exact l.tells_halfSteps steps
  | transfer values => exact nomatch hstep

/-- **What the answers tell.** The record of a script without transfers is what can be read off the
answers to its steps. -/
theorem tells_runAll (h : Simulation rel) (hrel : rel l.ring q) {steps : List (RingStep α)}
    (hsteps : ∀ step ∈ steps, step.isTransfer = false) :
    let (answers, l') := RingStep.runAll l steps
    Tells l l' (steps.flatMap RingStep.offered)
      (List.zipWith RingStep.accepted steps answers).flatten
      (answers.flatMap RingAnswer.received) (answers.flatMap RingAnswer.returned) := by
  induction steps generalizing l q with
  | nil => exact .refl l
  | cons step steps ih =>
    obtain ⟨hstep, hrest⟩ := List.forall_mem_cons.1 hsteps
    obtain ⟨-, hring⟩ := simulation_ring.step (rfl : l.ring = l.ring) step
    have hrel' : rel (step.run l).2.ring (step.run q).2 := by
      rw [hring]
      exact (h.step hrel step).2
    exact (tells_step h hrel hstep).trans (ih hrel' hrest)

end Recorded

end Handoff
