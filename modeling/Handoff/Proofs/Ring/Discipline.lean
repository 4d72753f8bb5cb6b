import Handoff.Proofs.Ring.Kinds
import Handoff.Ring.Careful

/-!
# Slots are used with care

Nothing but the indices says which slots of a ring hold values, so a push fills a slot and a pop
takes a value out of one without looking. The window of the ring tells that this is safe: the slots
that hold values are those from `read` up to but excluding `write`, counted circularly
(`Ring.Window.filled_iff`). The slot at `write` is empty, the one at `read` holds a value if the
ring is not empty, and the index behind either of them is a slot again. So a push or a pop that
looks before it acts is never stopped (`Ring.Window.push?_eq`, `CachedRing.Knows.push?_eq`).

How far the copies of a cached ring are behind is seen in the same way, by counting circularly from
the copy of `read` (`CachedRing.Knows.copiesInOrder`).
-/

namespace Handoff

variable {α : Type}

/-! ### Circular distances -/

/-- The number of steps from one index of a ring forward to another. -/
def circularDistance (capacity i j : UInt64) : Nat :=
  (j.toNat + capacity.toNat - i.toNat) % capacity.toNat

namespace StandsFor

variable {capacity i j : UInt64} {a b : Nat}

theorem index_lt (h : StandsFor capacity.toNat i a) (hpos : 0 < capacity) : i < capacity :=
  UInt64.lt_iff_toNat_lt.2 (h.lt (UInt64.lt_iff_toNat_lt.1 hpos))

/-- Less than one turn apart, the distance between two indices is that of their counts. -/
theorem circularDistance_eq (hi : StandsFor capacity.toNat i a)
    (hj : StandsFor capacity.toNat j b) (hle : a ≤ b) (hlt : b < a + capacity.toNat) :
    circularDistance capacity i j = b - a := by
  obtain ⟨m, rfl⟩ := Nat.exists_eq_add_of_le hle
  rw [Nat.add_sub_cancel_left]
  exact hi.distance hj (Nat.lt_of_add_lt_add_left hlt)

/-- Every slot is reached by going forward from an index. -/
theorem add_circularDistance (hi : StandsFor capacity.toNat i a) (hj : j < capacity) :
    StandsFor capacity.toNat j (a + circularDistance capacity i j) := by
  have hlt : j.toNat < capacity.toNat := UInt64.lt_iff_toNat_lt.1 hj
  have hilt := hi.lt (Nat.zero_lt_of_lt hlt)
  rw [StandsFor, circularDistance, Nat.add_mod, ← hi, Nat.mod_mod, Nat.add_mod_mod,
    show i.toNat + (j.toNat + capacity.toNat - i.toNat) = j.toNat + capacity.toNat by omega,
    Nat.add_mod_right, Nat.mod_eq_of_lt hlt]

end StandsFor

/-! ### The plain ring -/

/-- What the indices of a ring tell about its slots. -/
structure Ring.Tidy (r : Ring α) : Prop where
  read_lt : r.read < r.capacity
  write_lt : r.write < r.capacity
  size_eq : r.slots.cells.size = r.capacity.toNat
  /-- The slots that hold values are those from `read` up to but excluding `write`. -/
  filled_iff : ∀ i, (r.slots.get? i).isSome = true ↔
    i < r.capacity ∧
      circularDistance r.capacity r.read i < circularDistance r.capacity r.read r.write
  vacant_write : r.slots.vacant r.write = true
  /-- The index behind either index can be computed. -/
  next_read : nextIndex? r.read r.capacity = some (nextIndex r.read r.capacity)
  next_write : nextIndex? r.write r.capacity = some (nextIndex r.write r.capacity)

namespace Ring.Window

variable {r : Ring α} {first : Nat} {q : List α} {value : α}

theorem read_lt (h : r.Window first q) : r.read < r.capacity := h.read.index_lt h.pos

theorem write_lt (h : r.Window first q) : r.write < r.capacity := h.write.index_lt h.pos

/-- A slot holds the value at its distance from `read`. -/
theorem get?_eq (h : r.Window first q) {i : UInt64} (hi : i < r.capacity) :
    r.slots.get? i = q[circularDistance r.capacity r.read i]? :=
  h.slots.get?_eq (h.read.add_circularDistance hi)
    (Nat.mod_lt _ (UInt64.lt_iff_toNat_lt.1 h.pos))

theorem get?_of_le (h : r.Window first q) {i : UInt64} (hi : r.capacity ≤ i) :
    r.slots.get? i = none := by
  rw [Slots.get?, Array.getElem?_eq_none]
  · rfl
  · rw [h.slots.size_eq]
    exact UInt64.le_iff_toNat_le.1 hi

theorem circularDistance_read_write (h : r.Window first q) :
    circularDistance r.capacity r.read r.write = q.length :=
  h.size_eq

theorem filled_iff (h : r.Window first q) (i : UInt64) :
    (r.slots.get? i).isSome = true ↔
      i < r.capacity ∧
        circularDistance r.capacity r.read i < circularDistance r.capacity r.read r.write := by
  rw [h.circularDistance_read_write]
  by_cases hi : i < r.capacity
  · rw [h.get?_eq hi, Option.isSome_iff_ne_none, ne_eq, List.getElem?_eq_none_iff, Nat.not_le]
    exact ⟨fun hlt => ⟨hi, hlt⟩, fun hlt => hlt.2⟩
  · rw [h.get?_of_le (UInt64.not_lt.1 hi)]
    exact iff_of_false Bool.false_ne_true fun hlt => hi hlt.1

theorem vacant_write (h : r.Window first q) : r.slots.vacant r.write = true := by
  refine Slots.vacant_iff.2 ⟨?_, ?_⟩
  · rw [h.slots.size_eq]
    exact UInt64.lt_iff_toNat_lt.1 h.write_lt
  · rw [h.get?_eq h.write_lt, h.circularDistance_read_write]
    exact List.getElem?_eq_none (Nat.le_refl _)

/-- The slot at `read` holds the oldest value. -/
theorem get?_read (h : r.Window first (value :: q)) : r.slots.get? r.read = some value :=
  h.slots.get?_eq (k := 0) h.read (UInt64.lt_iff_toNat_lt.1 h.pos)

theorem tidy (h : r.Window first q) : r.Tidy where
  read_lt := h.read_lt
  write_lt := h.write_lt
  size_eq := h.slots.size_eq
  filled_iff := h.filled_iff
  vacant_write := h.vacant_write
  next_read := nextIndex?_of_lt h.read_lt
  next_write := nextIndex?_of_lt h.write_lt

/-- A push that looks is not stopped. -/
theorem push?_eq (h : r.Window first q) (value : α) : r.push? value = some (r.push value) := by
  simp only [Ring.push?, Ring.push, nextIndex?_of_lt h.write_lt, Option.bind_eq_bind,
    Option.bind_some]
  split
  · rfl
  · rw [Slots.write?_of_vacant h.vacant_write]
    rfl

/-- A pop that looks is not stopped. -/
theorem pop?_eq (h : r.Window first q) : r.pop? = some r.pop := by
  simp only [Ring.pop?, Ring.pop]
  split
  · rfl
  · next hne =>
    cases q with
    | nil => exact absurd (h.empty_iff.2 rfl) hne
    | cons value q =>
      have hread := h.get?_read
      simp only [Slots.take?_of_get? hread, Slots.take, hread, nextIndex?_of_lt h.read_lt,
        Option.bind_eq_bind, Option.bind_some]
      rfl

end Ring.Window

/-! ### The cached ring -/

/-- Counted circularly from the copy of `read`, one meets `read`, the copy of `write` and `write` in
this order, within one turn. -/
structure CachedRing.CopiesInOrder (r : CachedRing α) : Prop where
  readCopy_lt : r.readCopy < r.capacity
  writeCopy_lt : r.writeCopy < r.capacity
  read_le : circularDistance r.capacity r.readCopy r.read ≤
    circularDistance r.capacity r.readCopy r.writeCopy
  writeCopy_le : circularDistance r.capacity r.readCopy r.writeCopy ≤
    circularDistance r.capacity r.readCopy r.write
  write_le : circularDistance r.capacity r.readCopy r.write ≤ r.capacity.toNat - 1

namespace CachedRing.Knows

variable {r : CachedRing α} {first popped pushed : Nat} {q : List α}

theorem copiesInOrder (h : r.Knows first q popped pushed) : r.CopiesInOrder := by
  have hpopped := h.popped_le
  have hpushed := h.pushed_le
  have hfirst := h.le_pushed
  have hturn := h.lt_turn
  -- the four counts are less than one turn apart, so their differences are circular distances
  have hread : circularDistance r.capacity r.readCopy r.read = first - popped :=
    h.readCopy.circularDistance_eq h.ring.read hpopped (by omega)
  have hwriteCopy : circularDistance r.capacity r.readCopy r.writeCopy = pushed - popped :=
    h.readCopy.circularDistance_eq h.writeCopy (by omega) (by omega)
  have hwrite : circularDistance r.capacity r.readCopy r.write = first + q.length - popped :=
    h.readCopy.circularDistance_eq h.ring.write (by omega) hturn
  exact ⟨h.readCopy.index_lt h.ring.pos, h.writeCopy.index_lt h.ring.pos, by omega, by omega,
    by omega⟩

/-- A push that looks is not stopped, whether or not it looks up `read`. -/
theorem push?_eq (h : r.Knows first q popped pushed) (value : α) :
    r.push? value = some (r.push value) := by
  have hnext : nextIndex? r.write r.capacity = some (nextIndex r.write r.capacity) :=
    nextIndex?_of_lt h.ring.write_lt
  have hvacant : r.slots.vacant r.write = true := h.ring.vacant_write
  obtain ⟨copy, hcopy⟩ := r.exists_renewReadCopy_eq (nextIndex r.write r.capacity)
  simp only [CachedRing.push?, CachedRing.push, hnext, hcopy, Option.bind_eq_bind,
    Option.bind_some]
  split
  · rfl
  · rw [Slots.write?_of_vacant hvacant]
    rfl

/-- A pop that looks is not stopped, whether or not it looks up `write`. -/
theorem pop?_eq (h : r.Knows first q popped pushed) : r.pop? = some r.pop := by
  have hempty := h.empty_iff
  obtain ⟨copy, hcopy⟩ := r.exists_renewWriteCopy_eq
  rw [hcopy] at hempty
  simp only [CachedRing.pop?, CachedRing.pop, hcopy]
  split
  · rfl
  · next hne =>
    cases q with
    | nil => exact absurd (hempty.2 (h.read_eq_write_iff.2 rfl)) hne
    | cons value q =>
      have hread : r.slots.get? r.read = some value := h.ring.get?_read
      have hnext : nextIndex? r.read r.capacity = some (nextIndex r.read r.capacity) :=
        nextIndex?_of_lt h.ring.read_lt
      simp only [Slots.take?_of_get? hread, Slots.take, hread, hnext, Option.bind_eq_bind,
        Option.bind_some]
      rfl

end CachedRing.Knows

/-! ### Every script -/

/-- If the capacity allows a ring to be made, it is the intended one. -/
theorem eq_of_checkCapacity {R : Type} {capacity : UInt64} {ring made : R}
    (h : (do checkCapacity capacity; return ring : Except CapacityError R) = .ok made) :
    made = ring := by
  cases hcheck : checkCapacity capacity with
  | error e =>
    rw [hcheck] at h
    exact nomatch h
  | ok _ =>
    rw [hcheck] at h
    exact (Except.ok.inj h).symm

/-- **Slots are used with care.** After any script on a new ring of either kind, the indices and the
copies are indices of slots, the index behind each index can be computed, and the slots that hold
values are exactly those from `read` up to but excluding `write`. So a push fills no slot but an
existing one that is empty, and a pop takes a value out of no slot but an existing one that holds
one. Counted from the copy of `read`, a cached ring has its other indices in order. The only rings
that can be made are the empty ones. -/
theorem slots_used_with_care {capacity : UInt64} (hpos : 0 < capacity)
    (steps : List (RingStep α)) :
    let plain := (RingStep.runAll (Ring.ofCapacity capacity : Ring α) steps).2
    let cached := (RingStep.runAll (CachedRing.ofCapacity capacity : CachedRing α) steps).2
    (plain.capacity = capacity ∧ plain.Tidy ∧
        (∀ value, plain.push? value = some (plain.push value)) ∧ plain.pop? = some plain.pop) ∧
      (cached.capacity = capacity ∧ cached.toRing.Tidy ∧ cached.CopiesInOrder ∧
        (∀ value, cached.push? value = some (cached.push value)) ∧
          cached.pop? = some cached.pop) ∧
      (∀ made : Ring α, Ring.new capacity = .ok made → made = .ofCapacity capacity) ∧
      ∀ made : CachedRing α, CachedRing.new capacity = .ok made → made = .ofCapacity capacity := by
  intro plain cached
  obtain ⟨hcapacity, -, first, hwindow⟩ :=
    (Ring.faithful capacity).runAll (.ofCapacity (α := α) hpos) steps
  obtain ⟨p, ⟨hring, first', q, popped, pushed, hknows⟩, hfifo⟩ :=
    (CachedRing.faithful capacity).runAll (CachedRing.isFifo_ofCapacity (α := α) hpos) steps
  have hcapacity' : cached.capacity = capacity :=
    (congrArg Ring.capacity hring).trans hfifo.ring_capacity
  exact ⟨⟨hcapacity, hwindow.tidy, hwindow.push?_eq, hwindow.pop?_eq⟩,
    ⟨hcapacity', hknows.ring.tidy, hknows.copiesInOrder, hknows.push?_eq, hknows.pop?_eq⟩,
    fun _ => eq_of_checkCapacity, fun _ => eq_of_checkCapacity⟩

/-- In a ring that has gone around, the slots behind the end hold the older values. -/
theorem slots_used_with_care_three :
    let steps : List (RingStep Nat) := [.push 1, .push 2, .pop, .push 3]
    let ring := (RingStep.runAll (CachedRing.ofCapacity 3 : CachedRing Nat) steps).2
    (0 : UInt64) < 3 ∧ ring.read = 1 ∧ ring.write = 0 ∧
      (ring.slots.get? 2).isSome = true ∧ ring.slots.vacant 0 = true ∧
      ring.push? 4 = some (ring.push 4) := by
  intro steps ring
  have hread : ring.read = 1 := by decide +kernel
  have hwrite : ring.write = 0 := by decide +kernel
  obtain ⟨-, ⟨-, htidy, -, hpush, -⟩, -⟩ :=
    slots_used_with_care (by decide : (0 : UInt64) < 3) steps
  refine ⟨by decide, hread, hwrite, (htidy.filled_iff 2).2 (by decide +kernel), ?_, hpush 4⟩
  exact hwrite ▸ htidy.vacant_write

end Handoff
