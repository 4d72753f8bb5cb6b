import Handoff.Proofs.Threads.Journal
import Handoff.Proofs.Ring.Window

/-!
# The flow of values

Between the accesses of its two sides a ring is not the list of its values: a value may be in a slot
that `write` does not cover yet, or out of its slot while `read` still covers it. `Flow` says where
the values are, whatever the points of the two sides, and what can still be read off the indices:
how many values were accepted and not received (`Flow.size_eq`), and with it whether the ring is
full or empty.
-/

namespace Handoff.RingCode

variable {α : Type}

/-! ### What a side has in hand -/

/-- The value that a push has put into its slot and not yet published. -/
def Point.pending : Point α → List α
  | .publishing value _ => [value]
  | _ => []

/-- The value that a pop has taken out of its slot and not yet returned. -/
def Point.held : Point α → List α
  | .vacating value _ => value.toList
  | _ => []

theorem Point.held_eq (p : Point α) : p.held = [] ∨ ∃ value, p.held = [value] := by
  cases p with
  | vacating value read =>
    cases value with
    | none => exact .inl rfl
    | some value => exact .inr ⟨value, rfl⟩
  | _ => exact .inl rfl

/-! ### Where the values are -/

/-- The flow of values: those accepted are those received, the one that a pop has in hand, and
those inside. The indices stand for the numbers of values accepted and received; the slots hold the
values inside, and behind them the one that a push has not yet published. -/
structure Flow (capacity : UInt64) (r : Ring α) (p c : Point α) (accepted received : List α)
    (inside : List α) : Prop where
  capacity_eq : r.capacity = capacity
  order : accepted = received ++ (c.held ++ inside)
  write : StandsFor capacity.toNat r.write accepted.length
  read : StandsFor capacity.toNat r.read received.length
  slots : r.slots.Holds capacity.toNat (received.length + c.held.length) (inside ++ p.pending)
  room : accepted.length + p.pending.length < received.length + capacity.toNat

/-! ### What the indices tell -/

namespace Flow

variable {capacity : UInt64} {r : Ring α} {p p' c c' : Point α}
  {accepted received inside : List α}

theorem length_eq (h : Flow capacity r p c accepted received inside) :
    accepted.length = received.length + (c.held.length + inside.length) := by
  rw [h.order, List.length_append, List.length_append]

theorem pos (h : Flow capacity r p c accepted received inside) : 0 < capacity := by
  have hroom := h.room
  have hlength := h.length_eq
  exact UInt64.lt_iff_toNat_lt.2 (by change 0 < capacity.toNat; omega)

theorem size_eq (h : Flow capacity r p c accepted received inside) :
    r.size = accepted.length - received.length := by
  have hlength := h.length_eq
  have hroom := h.room
  have hwrite : StandsFor capacity.toNat r.write
      (received.length + (accepted.length - received.length)) := by
    rw [Nat.add_sub_cancel' (by omega)]
    exact h.write
  have hdistance := h.read.distance hwrite (by omega)
  rw [← h.capacity_eq] at hdistance
  exact hdistance

theorem isFull_iff (h : Flow capacity r p c accepted received inside) :
    isFull r = true ↔ accepted.length + 1 = received.length + capacity.toNat := by
  have hlength := h.length_eq
  have hroom := h.room
  rw [isFull, decide_eq_true_eq, h.size_eq, h.capacity_eq]
  omega

theorem isEmpty_iff (h : Flow capacity r p c accepted received inside) :
    isEmpty r = true ↔ accepted.length = received.length := by
  have hlength := h.length_eq
  rw [isEmpty, decide_eq_true_eq, h.size_eq]
  omega

theorem next_eq_read_iff (h : Flow capacity r p c accepted received inside) :
    nextIndex r.write capacity = r.read ↔ isFull r = true := by
  have hlength := h.length_eq
  have hroom := h.room
  rw [h.isFull_iff]
  exact h.read.turn_iff (h.write.next h.pos) (by omega) (by omega)

theorem read_eq_write_iff (h : Flow capacity r p c accepted received inside) :
    r.read = r.write ↔ isEmpty r = true := by
  have hlength := h.length_eq
  have hroom := h.room
  rw [h.isEmpty_iff, h.read.eq_iff h.write (by omega) (by omega)]
  exact eq_comm

/-- The values inside are those of the slots from `read` to `write`. -/
theorem toList_eq (h : Flow capacity r p c accepted received inside) : r.toList = inside := by
  have hlength := h.length_eq
  have hroom := h.room
  have hslots := h.slots
  have hsize : r.size = c.held.length + inside.length := by
    rw [h.size_eq]
    omega
  have hcells (k : Nat) : (r.slots.cells[(r.read.toNat + k) % r.capacity.toNat]?).join =
      (r.slots.cells[(received.length + k) % capacity.toNat]?).join := by
    rw [h.capacity_eq, h.read, Nat.mod_add_mod]
  simp only [Ring.toList, hsize, hcells]
  rcases c.held_eq with hnone | ⟨value, hone⟩
  · rw [hnone] at hslots ⊢
    rw [List.length_nil, Nat.zero_add]
    exact hslots.filterMap_eq (by omega)
  · -- the slot of the value in hand is already empty
    rw [hone] at hslots hlength ⊢
    rw [List.length_singleton] at hslots hlength ⊢
    rw [Nat.add_comm 1, List.range_succ_eq_map, List.filterMap_cons, Nat.add_zero,
      hslots.cell_before (by rw [List.length_append]; omega), List.filterMap_map]
    simp only [Function.comp_def, Nat.succ_eq_one_add, ← Nat.add_assoc]
    exact hslots.filterMap_eq (by omega)

/-- Of the points, the flow sees only what they have in hand. -/
theorem congr (h : Flow capacity r p c accepted received inside) (hp : p'.pending = p.pending)
    (hc : c'.held = c.held) : Flow capacity r p' c' accepted received inside where
  capacity_eq := h.capacity_eq
  order := hc ▸ h.order
  write := h.write
  read := h.read
  slots := by
    rw [hp, hc]
    exact h.slots
  room := hp ▸ h.room

end Flow

end Handoff.RingCode
