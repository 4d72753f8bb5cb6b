import Mathlib.Data.List.Basic
import Handoff.Ring.Basic

/-!
# The window of a ring

The indices of a ring go around, which hides how far they have come. Here an index *stands for* a
count that only grows (`StandsFor`): the consumer's for the number of values popped so far, the
producer's for the number pushed. Counts that are less than one turn apart can be told from their
indices (`StandsFor.eq_iff`), counts that are a whole turn apart look the same
(`StandsFor.turn_iff`), and the distance of two indices is the difference of their counts
(`StandsFor.distance`).

`Slots.Holds` says what all slots of a ring hold: the values of a list from some count on, and
nothing in the rest of the circle. Filling the slot behind the list appends a value
(`Slots.Holds.write`), clearing its first slot drops one (`Slots.Holds.clear`).
-/

namespace Handoff

/-! ### Counts -/

/-- The index `i` stands for the count `k` in a ring of `n` slots. -/
def StandsFor (n : Nat) (i : UInt64) (k : Nat) : Prop := i.toNat = k % n

/-- Counts less than one turn apart fall on different slots. -/
theorem count_eq_of_mod_eq {n a b : Nat} (hle : a ≤ b) (hlt : b < a + n)
    (h : a % n = b % n) : a = b := by
  have hdvd : n ∣ b - a := Nat.dvd_of_mod_eq_zero (Nat.sub_mod_eq_zero_of_mod_eq h.symm)
  have hzero : b - a = 0 := Nat.eq_zero_of_dvd_of_lt hdvd (by omega)
  omega

/-- Offsets within one turn fall on different slots, wherever they are counted from. -/
theorem offset_eq_of_mod_eq {n a j k : Nat} (hj : j < n) (hk : k < n)
    (h : (a + j) % n = (a + k) % n) : j = k := by
  rcases Nat.le_total j k with hjk | hkj
  · have := count_eq_of_mod_eq (by omega) (by omega) h
    omega
  · have := count_eq_of_mod_eq (by omega) (by omega) h.symm
    omega

namespace StandsFor

variable {n a b m : Nat} {i j capacity : UInt64}

theorem zero (n : Nat) : StandsFor n 0 0 := (Nat.zero_mod n).symm

theorem lt (h : StandsFor n i a) (hn : 0 < n) : i.toNat < n := by
  rw [h]
  exact Nat.mod_lt a hn

/-- The next index stands for the next count. -/
theorem next (h : StandsFor capacity.toNat i a) (hpos : 0 < capacity) :
    StandsFor capacity.toNat (nextIndex i capacity) (a + 1) := by
  have hlt : i < capacity := UInt64.lt_iff_toNat_lt.2 (h.lt (UInt64.lt_iff_toNat_lt.1 hpos))
  rw [StandsFor, toNat_nextIndex hlt, h, Nat.mod_add_mod]

/-- Less than one turn apart, indices meet exactly if the counts do. -/
theorem eq_iff (hi : StandsFor n i a) (hj : StandsFor n j b) (hle : a ≤ b) (hlt : b < a + n) :
    i = j ↔ a = b := by
  rw [← UInt64.toNat_inj, hi, hj]
  exact ⟨count_eq_of_mod_eq hle hlt, fun h => by rw [h]⟩

/-- An index that is ahead of another, but by no more than one turn, meets it exactly if it is one
turn ahead. -/
theorem turn_iff (hi : StandsFor n i a) (hj : StandsFor n j b) (hlt : a < b) (hle : b ≤ a + n) :
    j = i ↔ b = a + n := by
  have hturn : StandsFor n i (a + n) := by rw [StandsFor, Nat.add_mod_right, hi]
  refine (hj.eq_iff hturn hle (by omega))

/-- The distance between two indices is that of their counts. -/
theorem distance (hi : StandsFor n i a) (hj : StandsFor n j (a + m)) (hm : m < n) :
    (j.toNat + n - i.toNat) % n = m := by
  have hmod : a % n < n := Nat.mod_lt a (by omega)
  rw [hi, hj, ← Nat.mod_add_mod]
  by_cases hwrap : a % n + m < n
  · rw [Nat.mod_eq_of_lt hwrap, show a % n + m + n - a % n = m + n by omega, Nat.add_mod_right,
      Nat.mod_eq_of_lt hm]
  · have hwrapped : (a % n + m) % n = a % n + m - n := by
      rw [Nat.mod_eq_sub_mod (Nat.le_of_not_lt hwrap), Nat.mod_eq_of_lt (by omega)]
    rw [hwrapped, show a % n + m - n + n - a % n = m by omega, Nat.mod_eq_of_lt hm]

end StandsFor

/-! ### What the slots hold -/

theorem filterMap_getElem?_range {α : Type} (q rest : List α) :
    (List.range q.length).filterMap (fun k => (q ++ rest)[k]?) = q := by
  induction q with
  | nil => rfl
  | cons v q ih =>
    rw [List.length_cons, List.range_succ_eq_map, List.filterMap_cons, List.filterMap_map]
    exact congrArg (v :: ·) ih

namespace Slots

variable {α : Type}

/-- The `n` slots hold the values of `q` in the slots from the count `first` on, and nothing in the
rest of the circle. -/
structure Holds (s : Slots α) (n first : Nat) (q : List α) : Prop where
  size_eq : s.cells.size = n
  cell : ∀ j < n, (s.cells[(first + j) % n]?).join = q[j]?

variable {s : Slots α} {n first : Nat} {q : List α} {i : UInt64} {value : α}

theorem holds_empty (capacity : UInt64) :
    (empty capacity : Slots α).Holds capacity.toNat 0 [] := by
  refine ⟨Array.size_replicate, fun j hj => ?_⟩
  rw [empty, Array.getElem?_replicate, if_pos (Nat.mod_lt _ (by omega)), List.getElem?_nil]
  rfl

/-- The slot of an index in the window. -/
theorem Holds.get?_eq (h : s.Holds n first q) {k : Nat} (hi : StandsFor n i (first + k))
    (hk : k < n) : s.get? i = q[k]? := by
  rw [get?, hi]
  exact h.cell k hk

/-- The values read off the first slots of the window. -/
theorem Holds.filterMap_eq {rest : List α} (h : s.Holds n first (q ++ rest))
    (hle : q.length ≤ n) :
    (List.range q.length).filterMap (fun k => (s.cells[(first + k) % n]?).join) = q := by
  have hcells : ∀ k ∈ List.range q.length,
      (s.cells[(first + k) % n]?).join = (q ++ rest)[k]? := fun k hk =>
    h.cell k (Nat.lt_of_lt_of_le (List.mem_range.1 hk) hle)
  rw [List.filterMap_congr hcells, filterMap_getElem?_range]

/-- The slot right before the window, if the window leaves one. -/
theorem Holds.cell_before (h : s.Holds n (first + 1) q) (hlt : q.length < n) :
    (s.cells[first % n]?).join = none := by
  have hcell := h.cell (n - 1) (by omega)
  rw [show first + 1 + (n - 1) = first + n by omega, Nat.add_mod_right] at hcell
  rw [hcell]
  exact List.getElem?_eq_none (by omega)

theorem Holds.mod_lt_size (h : s.Holds n first q) (hn : 0 < n) (k : Nat) :
    k % n < s.cells.size := by
  rw [h.size_eq]
  exact Nat.mod_lt k hn

/-- Filling the slot behind the window appends to it. -/
theorem Holds.write (h : s.Holds n first q) (hi : StandsFor n i (first + q.length))
    (hlt : q.length < n) (value : α) : (s.write i value).Holds n first (q ++ [value]) := by
  refine ⟨by rw [Slots.write, Array.size_setIfInBounds, h.size_eq], fun j hj => ?_⟩
  rw [Slots.write, Array.getElem?_setIfInBounds, hi]
  by_cases hjq : j = q.length
  · subst hjq
    rw [if_pos rfl, if_pos (h.mod_lt_size (by omega) _), List.getElem?_concat_length]
    rfl
  · have hne : (first + q.length) % n ≠ (first + j) % n := fun e =>
      hjq (offset_eq_of_mod_eq hlt hj e).symm
    rw [if_neg hne, h.cell j hj]
    rcases Nat.lt_or_gt_of_ne hjq with hlt' | hgt
    · rw [List.getElem?_append_left hlt']
    · have hend : (q ++ [value]).length ≤ j := by
        rw [List.length_append]
        exact hgt
      rw [List.getElem?_eq_none hend, List.getElem?_eq_none (Nat.le_of_lt hgt)]

/-- Clearing the first slot of the window drops a value from it. -/
theorem Holds.clear (h : s.Holds n first (value :: q)) (hi : StandsFor n i first)
    (hlt : q.length < n) : (s.clear i).Holds n (first + 1) q := by
  refine ⟨by rw [Slots.clear, Array.size_setIfInBounds, h.size_eq], fun j hj => ?_⟩
  rw [Slots.clear, Array.getElem?_setIfInBounds, hi, Nat.add_assoc, Nat.add_comm 1 j]
  by_cases hlast : j + 1 = n
  · -- the slot that was cleared is the last one seen from the next
    have hend : q.length ≤ j := by omega
    rw [hlast, Nat.add_mod_right, if_pos rfl, if_pos (h.mod_lt_size (by omega) _),
      List.getElem?_eq_none hend]
    rfl
  · have hne : first % n ≠ (first + (j + 1)) % n := fun e => by
      have := offset_eq_of_mod_eq (a := first) (j := 0) (by omega) (by omega : j + 1 < n) e
      omega
    rw [if_neg hne, h.cell (j + 1) (by omega), List.getElem?_cons_succ]

end Slots

end Handoff
