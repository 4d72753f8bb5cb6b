import Handoff.Proofs.Ring.Answers
import Handoff.Proofs.Ring.Kinds

/-!
# No value is lost

Between its making and its end a ring takes values in and gives values out, and what it has taken in
and not given out is inside. That is a relation between the record of a ring and the list of its
values (`Recorded.Balances`) which a push and a pop keep, hence a simulation, so it holds after any
script. When the ring is dropped it drops what is inside, so each value that was ever offered is in
the end in one of three places: received, dropped, or given back (`values_conserved`). The record is
nothing but what a script and the answers to it say.
-/

namespace Handoff

variable {R α : Type}

/-! ### Deeds -/

namespace RingDeed

/-- A deed makes one list of values out of another: what it receives was the first one, what it is
allowed to leave there is the last one, and what it gives back is what it was called with. -/
structure Turns (deed : RingDeed α) (items items' : List α) : Prop where
  balance : deed.received?.toList ++ items' = items ++ deed.accepted?.toList
  honest : deed.IsHonest

/-- Every value offered was accepted or given back. -/
theorem perm_offered {deeds : List (RingDeed α)} (h : ∀ deed ∈ deeds, deed.IsHonest) :
    (deeds.filterMap accepted? ++ deeds.filterMap givenBack?).Perm
      (deeds.filterMap offered?) := by
  induction deeds with
  | nil => exact .refl _
  | cons deed deeds ih =>
    obtain ⟨hhead, htail⟩ := List.forall_mem_cons.1 h
    cases deed with
    | pop found => exact ih htail
    | push value outcome =>
      obtain rfl | rfl := hhead
      · exact (ih htail).cons value
      · exact List.perm_middle.trans ((ih htail).cons value)

end RingDeed

theorem Fifo.push_turns (q : Fifo α) (value : α) :
    (RingDeed.push value (q.push value).1).Turns q.items (q.push value).2.items := by
  rw [Fifo.push]
  split
  · exact ⟨rfl, .inl rfl⟩
  · exact ⟨(List.append_nil _).symm, .inr rfl⟩

theorem Fifo.pop_turns (q : Fifo α) :
    (RingDeed.pop q.pop.1).Turns q.items q.pop.2.items := by
  obtain ⟨capacity, items⟩ := q
  cases items with
  | nil => exact ⟨rfl, trivial⟩
  | cons value items => exact ⟨(List.append_nil _).symm, trivial⟩

/-! ### The record of a ring -/

namespace Recorded

/-- The record and the list account for the same values: those that have been accepted were received
or are in the list, in this order. -/
structure Balances (rel : R → Fifo α → Prop) (l : Recorded R α) (q : Fifo α) : Prop where
  ring : rel l.ring q
  balance : l.received ++ q.items = l.accepted
  honest : ∀ deed ∈ l.deeds, deed.IsHonest

variable {rel : R → Fifo α → Prop} {l : Recorded R α} {q q' : Fifo α} {r : R} {deed : RingDeed α}

theorem Balances.start (h : rel r q) (hempty : q.items = []) :
    Balances rel (Recorded.start r) q :=
  ⟨h, hempty, nofun⟩

/-- A deed on record accounts for what it has done to the list. -/
theorem Balances.note (h : Balances rel l q) (hrel : rel r q')
    (hturns : deed.Turns q.items q'.items) : Balances rel (l.note r deed) q' := by
  refine ⟨hrel, ?_, fun deed' hmem => ?_⟩
  · rw [accepted_note, received_note, List.append_assoc, hturns.balance, ← List.append_assoc,
      h.balance]
  · rcases List.mem_append.1 hmem with hold | hnew
    · exact h.honest deed' hold
    · exact List.mem_singleton.1 hnew ▸ hturns.honest

variable [Spsc R α]

/-- The books stay balanced. -/
theorem simulation_balances (h : Simulation rel) : Simulation (Balances rel) where
  capacity_eq hbal := h.capacity_eq hbal.ring
  size_eq hbal := h.size_eq hbal.ring
  push {l q} hbal value := by
    obtain ⟨hanswer, hrel⟩ := h.push hbal.ring value
    exact ⟨hanswer, hbal.note hrel (hanswer ▸ q.push_turns value)⟩
  pop {l q} hbal := by
    obtain ⟨hanswer, hrel⟩ := h.pop hbal.ring
    exact ⟨hanswer, hbal.note hrel (hanswer ▸ q.pop_turns)⟩

end Recorded

/-! ### The whole life of a ring -/

variable [Spsc R α]

/-- A ring after a script, and the record of it. -/
def Recorded.after (ring : R) (steps : List (RingStep α)) : Recorded R α :=
  (RingStep.runAll (Recorded.start ring : Recorded R α) steps).2

/-- What becomes of the values that are offered to a ring by a script, at whose end the ring is
dropped. -/
structure Conserves (contents : R → List α) (ring : R) (steps : List (RingStep α)) : Prop where
  /-- The ring does not notice that a record is kept. -/
  recorded :
    (RingStep.runAll (Recorded.start ring : Recorded R α) steps).1 =
        (RingStep.runAll ring steps).1 ∧
      (Recorded.after ring steps).ring = (RingStep.runAll ring steps).2
  /-- The record is what can be read off the answers, unless there are transfers. -/
  told : (∀ step ∈ steps, step.isTransfer = false) →
    let answers := (RingStep.runAll ring steps).1
    (Recorded.after ring steps).offered = steps.flatMap RingStep.offered ∧
      (Recorded.after ring steps).accepted =
        (List.zipWith RingStep.accepted steps answers).flatten ∧
      (Recorded.after ring steps).received = answers.flatMap RingAnswer.received ∧
      (Recorded.after ring steps).givenBack = answers.flatMap RingAnswer.returned
  /-- What has been received, and then what the ring drops, is what it has accepted. -/
  conserved :
    (Recorded.after ring steps).received ++ Spsc.leftovers (RingStep.runAll ring steps).2 =
      (Recorded.after ring steps).accepted
  /-- Until the ring is dropped, all that has not been received is inside. -/
  inside :
    (Recorded.after ring steps).received ++ contents (RingStep.runAll ring steps).2 =
      (Recorded.after ring steps).accepted
  /-- What is not accepted is given back. -/
  honest : ∀ deed ∈ (Recorded.after ring steps).deeds, deed.IsHonest
  /-- Each value offered is received, dropped, or given back, and only once. -/
  once :
    ((Recorded.after ring steps).received ++ Spsc.leftovers (RingStep.runAll ring steps).2 ++
      (Recorded.after ring steps).givenBack).Perm (Recorded.after ring steps).offered
  /-- Dropping the ring takes one pop for each value inside, and another one that finds nothing. -/
  drop : ∀ patience,
    (Spsc.drain? patience (RingStep.runAll ring steps).2).map Prod.fst =
      if (contents (RingStep.runAll ring steps).2).length < patience then
        some (contents (RingStep.runAll ring steps).2)
      else none

theorem Faithful.conserves {capacity : UInt64} {contents : R → List α}
    {rel : R → Fifo α → Prop} {ring : R} (h : Faithful capacity contents rel)
    (hnew : rel ring (Fifo.ofCapacity capacity)) (steps : List (RingStep α)) :
    Conserves contents ring steps := by
  obtain ⟨hanswers, hring⟩ := Recorded.simulation_ring.runAll
    (rfl : (Recorded.start ring : Recorded R α).ring = ring) steps
  obtain ⟨-, hbal⟩ := (Recorded.simulation_balances h.simulation).runAll
    (Recorded.Balances.start hnew rfl) steps
  -- the books are about the list; it has the values inside the ring, and those are what it drops
  have hrel := h.runAll hnew steps
  have hinside := hbal.balance
  rw [← h.contents_eq hrel] at hinside
  have hconserved := hinside
  rw [← h.leftovers_eq hrel] at hconserved
  refine ⟨⟨hanswers, hring⟩, fun hsteps => ?_, hconserved, hinside, hbal.honest, ?_,
    h.map_fst_drain? hrel⟩
  · obtain ⟨hoffered, haccepted, hreceived, hgivenBack⟩ :=
      Recorded.tells_runAll h.simulation (l := Recorded.start ring) hnew hsteps
    rw [hanswers] at haccepted hreceived hgivenBack
    exact ⟨hoffered, haccepted, hreceived, hgivenBack⟩
  · rw [Recorded.after, hconserved]
    exact RingDeed.perm_offered hbal.honest

/-- **No value is lost.** After any script on a new ring of either kind, the values received and
then those that the ring drops are the values accepted, in this order. What a push does not accept
it gives back, and each value offered comes out once. Nothing is dropped before the ring is, and
dropping it takes as many successful pops as there are values inside. -/
theorem values_conserved {capacity : UInt64} (hpos : 0 < capacity) (steps : List (RingStep α)) :
    Conserves Ring.toList (Ring.ofCapacity capacity : Ring α) steps ∧
      Conserves CachedRing.toList (CachedRing.ofCapacity capacity : CachedRing α) steps :=
  ⟨(Ring.faithful capacity).conserves (.ofCapacity hpos) steps,
    (CachedRing.faithful capacity).conserves (CachedRing.isFifo_ofCapacity hpos) steps⟩

/-- Six values are offered to a ring of three slots: two are received, two given back and two
dropped. -/
theorem values_conserved_three :
    let steps : List (RingStep Nat) :=
      [.push 1, .push 2, .push 3, .pop, .split [.push 4, .pop, .push 5, .push 6]]
    let ring : CachedRing Nat := .ofCapacity 3
    let r := Recorded.after ring steps
    (0 : UInt64) < 3 ∧ r.received = [1, 2] ∧ r.givenBack = [3, 6] ∧ r.accepted = [1, 2, 4, 5] ∧
      Spsc.leftovers (RingStep.runAll ring steps).2 = [4, 5] := by
  intro steps ring r
  obtain ⟨-, h⟩ := values_conserved (by decide : (0 : UInt64) < 3) steps
  have hreceived : r.received = [1, 2] := by decide +kernel
  have haccepted : r.accepted = [1, 2, 4, 5] := by decide +kernel
  refine ⟨by decide, hreceived, by decide +kernel, haccepted, ?_⟩
  have hconserved : r.received ++ Spsc.leftovers (RingStep.runAll ring steps).2 =
      [1, 2] ++ [4, 5] := h.conserved.trans haccepted
  rw [hreceived] at hconserved
  exact List.append_cancel_left hconserved

end Handoff
