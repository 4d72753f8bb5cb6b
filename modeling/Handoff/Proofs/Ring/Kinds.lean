import Handoff.Proofs.Ring.Staleness

/-!
# Both kinds of rings are lists

A kind of ring is `Faithful` if its states stand for bounded lists, the values inside being those of
the list. The plain ring is (`Ring.faithful`), and so is the cached ring, by way of the plain ring
inside it (`CachedRing.faithful`). What is proved of faithful kinds is proved of both.

One such thing is how a ring comes to its end: popping until it is empty finds all that is inside,
and takes one pop more than there are values (`Faithful.map_fst_drain?`).
-/

namespace Handoff

variable {R S T α : Type}

/-- Two simulations, one after the other. -/
theorem Simulation.trans [Spsc R α] [Spsc S α] [Spsc T α] {rel : R → S → Prop}
    {rel' : S → T → Prop} (h : Simulation rel) (h' : Simulation rel') :
    Simulation fun r t => ∃ s, rel r s ∧ rel' s t where
  capacity_eq := fun ⟨_, hrel, hrel'⟩ => (h.capacity_eq hrel).trans (h'.capacity_eq hrel')
  size_eq := fun ⟨_, hrel, hrel'⟩ => (h.size_eq hrel).trans (h'.size_eq hrel')
  push := fun ⟨_, hrel, hrel'⟩ value => by
    obtain ⟨hanswer, hnext⟩ := h.push hrel value
    obtain ⟨hanswer', hnext'⟩ := h'.push hrel' value
    exact ⟨hanswer.trans hanswer', _, hnext, hnext'⟩
  pop := fun ⟨_, hrel, hrel'⟩ => by
    obtain ⟨hanswer, hnext⟩ := h.pop hrel
    obtain ⟨hanswer', hnext'⟩ := h'.pop hrel'
    exact ⟨hanswer.trans hanswer', _, hnext, hnext'⟩

/-! ### Faithful kinds -/

/-- Related states of a kind of ring and of a list answer alike, and the values of the list are
those inside the ring, of which there are fewer than slots. -/
structure Faithful [Spsc R α] (capacity : UInt64) (contents : R → List α)
    (rel : R → Fifo α → Prop) : Prop where
  simulation : Simulation rel
  contents_eq : ∀ {r q}, rel r q → contents r = q.items
  capacity_eq : ∀ {r q}, rel r q → q.capacity = capacity
  length_lt : ∀ {r q}, rel r q → q.items.length < capacity.toNat

theorem Ring.faithful (capacity : UInt64) :
    Faithful capacity Ring.toList (Ring.IsFifo (α := α) capacity) where
  simulation := Ring.simulation_isFifo capacity
  contents_eq h := h.toList_eq
  capacity_eq h := h.fifo_capacity
  length_lt h := by
    obtain ⟨first, hwindow⟩ := h.window
    rw [← h.ring_capacity]
    exact hwindow.lt_capacity

/-- The plain ring inside a cached one, whose copies are not too old, is the given list. -/
def CachedRing.IsFifo (capacity : UInt64) (c : CachedRing α) (q : Fifo α) : Prop :=
  ∃ p, c.Extends p ∧ p.IsFifo capacity q

theorem CachedRing.isFifo_ofCapacity {capacity : UInt64} (hpos : 0 < capacity) :
    IsFifo capacity (CachedRing.ofCapacity capacity : CachedRing α) (Fifo.ofCapacity capacity) :=
  ⟨_, extends_ofCapacity hpos, .ofCapacity hpos⟩

theorem CachedRing.faithful (capacity : UInt64) :
    Faithful capacity CachedRing.toList (CachedRing.IsFifo (α := α) capacity) where
  simulation := simulation_extends.trans (Ring.simulation_isFifo capacity)
  contents_eq := fun ⟨_, ⟨hring, _⟩, h⟩ =>
    (congrArg Ring.toList hring).trans ((Ring.faithful capacity).contents_eq h)
  capacity_eq := fun ⟨_, _, h⟩ => (Ring.faithful capacity).capacity_eq h
  length_lt := fun ⟨_, _, h⟩ => (Ring.faithful capacity).length_lt h

/-! ### The end of a ring -/

/-- A list is not found empty by as many pops as it has values. -/
theorem Fifo.drain?_eq_none (q : Fifo α) {patience : Nat} (h : patience ≤ q.items.length) :
    (Spsc.drain? patience q).map Prod.fst = none := by
  induction patience generalizing q with
  | zero => rfl
  | succ patience ih =>
    obtain ⟨capacity, items⟩ := q
    rw [Spsc.drain?_succ]
    cases items with
    | nil => exact absurd h (Nat.not_succ_le_zero _)
    | cons value items =>
      change ((Spsc.drain? patience (⟨capacity, items⟩ : Fifo α)).map Prod.fst).map _ = _
      rw [ih ⟨capacity, items⟩ (Nat.le_of_succ_le_succ h)]
      rfl

namespace Faithful

variable [Spsc R α] {capacity : UInt64} {contents : R → List α} {rel : R → Fifo α → Prop}
  {r : R} {q : Fifo α}

/-- Popping until a ring is empty finds all that is inside. It takes one pop for each value and
another one that finds nothing. -/
theorem map_fst_drain? (h : Faithful capacity contents rel) (hrel : rel r q) (patience : Nat) :
    (Spsc.drain? patience r).map Prod.fst =
      if (contents r).length < patience then some (contents r) else none := by
  rw [h.simulation.drain?_eq hrel, h.contents_eq hrel]
  split
  · next hlt => exact q.map_fst_drain? hlt
  · next hle => exact q.drain?_eq_none (Nat.le_of_not_lt hle)

/-- A ring that is dropped drops all that is inside. -/
theorem leftovers_eq (h : Faithful capacity contents rel) (hrel : rel r q) :
    Spsc.leftovers r = contents r := by
  have hlt := h.length_lt hrel
  rw [← h.contents_eq hrel, ← h.capacity_eq hrel] at hlt
  have hcapacity : Spsc.capacity r = q.capacity := h.simulation.capacity_eq hrel
  rw [Spsc.leftovers, hcapacity, h.map_fst_drain? hrel, if_pos hlt]
  rfl

/-- After any script a ring stands for some list. -/
theorem runAll (h : Faithful capacity contents rel) (hrel : rel r q) (steps : List (RingStep α)) :
    rel (RingStep.runAll r steps).2 (RingStep.runAll q steps).2 :=
  (h.simulation.runAll hrel steps).2

end Faithful

end Handoff
