import Handoff.Proofs.Ring.Window
import Handoff.Proofs.Ring.Simulation
import Handoff.Ring.Fifo

/-!
# A ring is a bounded first-in first-out list

`Ring.Window r first q` is the invariant of the plain ring: its slots hold the list `q` from the
count `first` of values popped so far on, and its indices stand for the two ends of that window. All
that a push or a pop decides is read off the window, also where it goes around the end of the
array. Whatever happens to a ring of at least one slot, it answers as the list of its values does
(`ring_refines_fifo`).
-/

namespace Handoff

variable {α : Type}

/-! ### The window of a ring -/

/-- The ring holds the values of `q`, `first` values having been popped before. -/
structure Ring.Window (r : Ring α) (first : Nat) (q : List α) : Prop where
  lt_capacity : q.length < r.capacity.toNat
  read : StandsFor r.capacity.toNat r.read first
  write : StandsFor r.capacity.toNat r.write (first + q.length)
  slots : r.slots.Holds r.capacity.toNat first q

namespace Ring

variable {r : Ring α} {first : Nat} {q : List α} {value : α}

theorem window_ofCapacity {capacity : UInt64} (hpos : 0 < capacity) :
    (ofCapacity capacity : Ring α).Window 0 [] where
  lt_capacity := UInt64.lt_iff_toNat_lt.1 hpos
  read := .zero _
  write := .zero _
  slots := Slots.holds_empty capacity

namespace Window

theorem pos (h : r.Window first q) : 0 < r.capacity :=
  UInt64.lt_iff_toNat_lt.2 (Nat.lt_of_le_of_lt (Nat.zero_le _) h.lt_capacity)

/-- The size read off the indices is the number of values. -/
theorem size_eq (h : r.Window first q) : r.size = q.length :=
  h.read.distance h.write h.lt_capacity

/-- The indices meet exactly if the ring is empty. -/
theorem empty_iff (h : r.Window first q) : r.read = r.write ↔ q = [] := by
  have hlt := h.lt_capacity
  rw [h.read.eq_iff h.write (Nat.le_add_right _ _) (by omega), ← List.length_eq_zero_iff]
  omega

/-- The index behind `write` is `read` exactly if all slots but one are taken. -/
theorem full_iff (h : r.Window first q) :
    nextIndex r.write r.capacity = r.read ↔ q.length + 1 = r.capacity.toNat := by
  have hlt := h.lt_capacity
  rw [h.read.turn_iff (h.write.next h.pos) (by omega) (by omega)]
  omega

/-- The values read off the slots are those of the window. -/
theorem toList_eq (h : r.Window first q) : r.toList = q := by
  have hslots := h.slots
  rw [← q.append_nil] at hslots
  have hcells (k : Nat) : (r.slots.cells[(r.read.toNat + k) % r.capacity.toNat]?).join =
      (r.slots.cells[(first + k) % r.capacity.toNat]?).join := by
    rw [h.read, Nat.mod_add_mod]
  simp only [toList, h.size_eq, hcells]
  exact hslots.filterMap_eq (Nat.le_of_lt h.lt_capacity)

/-! ### Pushes and pops -/

/-- A ring with all slots but one taken gives the value back. -/
theorem push_of_full (h : r.Window first q) (hfull : q.length + 1 = r.capacity.toNat)
    (value : α) : r.push value = (.refused value, r) := by
  rw [push, if_pos (h.full_iff.2 hfull)]

/-- A ring with a slot to spare takes the value. -/
theorem push_of_room (h : r.Window first q) (hroom : q.length + 1 < r.capacity.toNat)
    (value : α) :
    (r.push value).1 = .accepted ∧ (r.push value).2.capacity = r.capacity ∧
      (r.push value).2.Window first (q ++ [value]) := by
  have hnext : nextIndex r.write r.capacity ≠ r.read := fun e => by
    have := h.full_iff.1 e
    omega
  rw [push, if_neg hnext]
  refine ⟨rfl, rfl, ⟨?_, h.read, ?_, h.slots.write h.write h.lt_capacity value⟩⟩
  · rw [List.length_append]
    exact hroom
  · rw [List.length_append]
    exact h.write.next h.pos

/-- An empty ring has nothing to pop. -/
theorem pop_of_nil (h : r.Window first []) : r.pop = (none, r) := by
  rw [pop, if_pos (h.empty_iff.2 rfl)]

/-- A ring that is not empty gives its oldest value away. -/
theorem pop_of_cons (h : r.Window first (value :: q)) :
    r.pop.1 = some value ∧ r.pop.2.capacity = r.capacity ∧ r.pop.2.Window (first + 1) q := by
  have hlt : q.length + 1 < r.capacity.toNat := h.lt_capacity
  have hne : r.read ≠ r.write := fun e => nomatch h.empty_iff.1 e
  rw [pop, if_neg hne]
  refine ⟨h.slots.get?_eq (k := 0) h.read (by omega), rfl, ⟨?_, h.read.next h.pos, ?_, ?_⟩⟩
  · exact Nat.lt_of_succ_lt hlt
  · rw [Nat.add_assoc, Nat.add_comm 1]
    exact h.write
  · exact h.slots.clear h.read (by omega)

end Window

end Ring

/-! ### The list that a ring is -/

/-- The ring and the list have the given capacity and hold the same values. -/
structure Ring.IsFifo (capacity : UInt64) (r : Ring α) (q : Fifo α) : Prop where
  ring_capacity : r.capacity = capacity
  fifo_capacity : q.capacity = capacity
  window : ∃ first, r.Window first q.items

/-- A push into a list of values, by the number of values that are missing to the bound. -/
theorem Fifo.push_eq (q : Fifo α) (value : α) :
    q.push value =
      if q.items.length < q.capacity.toNat - 1 then
        (.accepted, { q with items := q.items ++ [value] })
      else (.refused value, q) := by
  rw [Fifo.push]
  exact if_congr (by omega) rfl rfl

namespace Ring.IsFifo

variable {capacity : UInt64} {r : Ring α} {q : Fifo α}

theorem ofCapacity (hpos : 0 < capacity) :
    IsFifo capacity (Ring.ofCapacity capacity : Ring α) (Fifo.ofCapacity capacity) :=
  ⟨rfl, rfl, 0, window_ofCapacity hpos⟩

theorem toList_eq (h : IsFifo capacity r q) : r.toList = q.items := by
  obtain ⟨first, hwindow⟩ := h.window
  exact hwindow.toList_eq

/-- A push has the outcome that it has for the list. -/
theorem push (h : IsFifo capacity r q) (value : α) :
    Alike (IsFifo capacity) (r.push value) (q.push value) := by
  obtain ⟨qcapacity, items⟩ := q
  obtain ⟨hr, rfl, first, hwindow⟩ := h
  simp only at hr hwindow ⊢
  rcases Nat.lt_or_eq_of_le (Nat.succ_le_of_lt hwindow.lt_capacity) with hroom | hfull
  · obtain ⟨hanswer, hcap, hpushed⟩ := hwindow.push_of_room hroom value
    rw [Fifo.push, if_pos (hr ▸ hroom)]
    exact ⟨hanswer, hcap.trans hr, rfl, first, hpushed⟩
  · rw [hwindow.push_of_full hfull, Fifo.push, if_neg (hr ▸ Nat.not_lt.2 (Nat.le_of_eq hfull.symm))]
    exact ⟨rfl, hr, rfl, first, hwindow⟩

/-- A push into a ring with all slots but one taken changes nothing. -/
theorem push_of_full (h : IsFifo capacity r q) (hfull : ¬q.items.length < capacity.toNat - 1)
    (value : α) : r.push value = (.refused value, r) := by
  obtain ⟨rfl, -, first, hwindow⟩ := h
  have hlt := hwindow.lt_capacity
  exact hwindow.push_of_full (by omega) value

/-- A pop has the outcome that it has for the list. -/
theorem pop (h : IsFifo capacity r q) : Alike (IsFifo capacity) r.pop q.pop := by
  obtain ⟨qcapacity, items⟩ := q
  obtain ⟨hr, rfl, first, hwindow⟩ := h
  cases items with
  | nil =>
    rw [hwindow.pop_of_nil]
    exact ⟨rfl, hr, rfl, first, hwindow⟩
  | cons value items =>
    obtain ⟨hanswer, hcap, hpopped⟩ := hwindow.pop_of_cons
    exact ⟨hanswer, hcap.trans hr, rfl, first + 1, hpopped⟩

/-- What the indices tell about the list. -/
theorem indices (h : IsFifo capacity r q) :
    q.items.length = (r.write.toNat + capacity.toNat - r.read.toNat) % capacity.toNat ∧
      q.items.length ≤ capacity.toNat - 1 ∧
      (r.read = r.write ↔ q.items = []) ∧
      (nextIndex r.write capacity = r.read ↔ q.items.length = capacity.toNat - 1) := by
  obtain ⟨rfl, -, first, hwindow⟩ := h
  have hlt := hwindow.lt_capacity
  refine ⟨hwindow.size_eq.symm, by omega, hwindow.empty_iff, ?_⟩
  rw [hwindow.full_iff]
  omega

theorem push_refused_iff (h : IsFifo capacity r q) (value : α) :
    (r.push value).1 = .refused value ↔ q.items.length = capacity.toNat - 1 := by
  have hle := (h.indices).2.1
  rw [(h.push value).1, Fifo.push_eq, h.fifo_capacity]
  split
  · exact iff_of_false nofun (by omega)
  · exact iff_of_true rfl (by omega)

theorem pop_none_iff (h : IsFifo capacity r q) : r.pop.1 = none ↔ q.items = [] := by
  rw [h.pop.1]
  exact List.head?_eq_none_iff

end Ring.IsFifo

/-- A ring answers as the list of its values. -/
theorem Ring.simulation_isFifo (capacity : UInt64) :
    Simulation (Ring.IsFifo (α := α) capacity) where
  capacity_eq h := h.ring_capacity.trans h.fifo_capacity.symm
  size_eq h := by
    obtain ⟨first, hwindow⟩ := h.window
    exact hwindow.size_eq
  push h value := h.push value
  pop h := h.pop

/-! ### What is left at the end -/

theorem Fifo.map_fst_drain? (q : Fifo α) {patience : Nat} (h : q.items.length < patience) :
    (Spsc.drain? patience q).map Prod.fst = some q.items := by
  induction patience generalizing q with
  | zero => exact absurd h (Nat.not_lt_zero _)
  | succ patience ih =>
    obtain ⟨capacity, items⟩ := q
    rw [Spsc.drain?_succ]
    cases items with
    | nil => rfl
    | cons value items =>
      change ((Spsc.drain? patience (⟨capacity, items⟩ : Fifo α)).map Prod.fst).map _ = _
      rw [ih ⟨capacity, items⟩ (Nat.lt_of_succ_lt_succ h)]
      rfl

/-- A ring that is dropped finds all its values, in order, before it runs out of pops. -/
theorem Ring.IsFifo.leftovers_eq {capacity : UInt64} {r : Ring α} {q : Fifo α}
    (h : IsFifo capacity r q) : Spsc.leftovers r = q.items := by
  obtain ⟨first, hwindow⟩ := h.window
  have hlt := hwindow.lt_capacity
  rw [h.ring_capacity, ← h.fifo_capacity] at hlt
  rw [(Ring.simulation_isFifo capacity).leftovers_eq h, Spsc.leftovers]
  change ((Spsc.drain? q.capacity.toNat q).map Prod.fst).getD [] = q.items
  rw [q.map_fst_drain? hlt]
  rfl

/-! ### Every script -/

/-- **A ring is a bounded first-in first-out list.** After any script, a ring has answered as the
list of the values that were accepted and not popped. A push succeeds exactly while there are fewer
values than slots but one; otherwise it gives the value back and changes nothing. A pop takes the
oldest value. The number of values, and whether there are none or as many as fit, can be read off
the indices. Through the halves of a split the ring does what it does when it is whole. -/
theorem ring_refines_fifo {capacity : UInt64} (hpos : 0 < capacity) (steps : List (RingStep α)) :
    let ring := RingStep.runAll (Ring.ofCapacity capacity : Ring α) steps
    let fifo := RingStep.runAll (Fifo.ofCapacity capacity : Fifo α) steps
    let r := ring.2
    let q := fifo.2.items
    ring.1 = fifo.1 ∧ r.toList = q ∧
      (∀ value, q.length < capacity.toNat - 1 →
        (r.push value).1 = .accepted ∧ (r.push value).2.toList = q ++ [value]) ∧
      (∀ value, ¬q.length < capacity.toNat - 1 → r.push value = (.refused value, r)) ∧
      (r.pop.1 = q.head? ∧ r.pop.2.toList = q.tail) ∧
      q.length = (r.write.toNat + capacity.toNat - r.read.toNat) % capacity.toNat ∧
      q.length ≤ capacity.toNat - 1 ∧
      (r.read = r.write ↔ q = []) ∧
      (nextIndex r.write capacity = r.read ↔ q.length = capacity.toNat - 1) ∧
      (capacity = 1 → (∀ value, (r.push value).1 = .refused value) ∧ r.pop.1 = none) ∧
      ∀ through : List (HalfStep α),
        let split := HalfStep.runAll (Halves.split r) through
        RingStep.runAll r (through.map HalfStep.direct) =
          (split.1.map HalfAnswer.direct, split.2.join) := by
  intro ring fifo r q
  obtain ⟨hanswers, hfifo⟩ :=
    (Ring.simulation_isFifo capacity).runAll (Ring.IsFifo.ofCapacity (α := α) hpos) steps
  change Ring.IsFifo capacity r fifo.2 at hfifo
  obtain ⟨hlength, hle, hempty, hfull⟩ := hfifo.indices
  obtain ⟨hpop, hpopped⟩ := hfifo.pop
  have hpush : ∀ value, q.length < capacity.toNat - 1 →
      (r.push value).1 = .accepted ∧ (r.push value).2.toList = q ++ [value] := fun value hroom => by
    obtain ⟨hanswer, hpushed⟩ := hfifo.push value
    rw [Fifo.push_eq, hfifo.fifo_capacity, if_pos hroom] at hanswer hpushed
    exact ⟨hanswer, hpushed.toList_eq⟩
  refine ⟨hanswers, hfifo.toList_eq, hpush, fun value hno => hfifo.push_of_full hno value,
    ⟨hpop, hpopped.toList_eq⟩, hlength, hle, hempty, hfull, ?_, HalfStep.runAll_split r⟩
  rintro rfl
  -- with a single slot there is never room and never a value
  have hnil : q = [] := List.length_eq_zero_iff.1 (Nat.le_zero.1 hle)
  refine ⟨fun value => ?_, ?_⟩
  · rw [hfifo.push_of_full (Nat.not_lt_zero _) value]
  · rw [hpop]
    exact congrArg List.head? hnil

/-- Four values through three slots, so that both indices go around. -/
theorem ring_refines_fifo_three :
    let steps : List (RingStep Nat) :=
      [.push 1, .split [.push 2, .push 3, .pop], .push 3, .pop, .split [.push 4], .pop]
    let ring := RingStep.runAll (Ring.ofCapacity 3 : Ring Nat) steps
    (0 : UInt64) < 3 ∧
      ring.1 =
        [.pushed .accepted,
          .halves [.pushed .accepted, .pushed (.refused 3), .popped (some 1)],
          .pushed .accepted, .popped (some 2), .halves [.pushed .accepted], .popped (some 3)] ∧
      ring.2.toList = [4] := by
  intro steps ring
  obtain ⟨hanswers, hlist, -⟩ := ring_refines_fifo (by decide : (0 : UInt64) < 3) steps
  exact ⟨by decide, hanswers.trans rfl, hlist.trans rfl⟩

end Handoff
