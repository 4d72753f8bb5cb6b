import Handoff.Ring.Cached
import Handoff.Word

/-!
# Careful rings

A push or a pop takes for granted that the next index can be computed, that the slot it fills exists
and is empty, and that the slot it takes a value from holds one. A careful push or pop is the same
except that it looks: it has no outcome if a sum wraps around, a division is by zero, or a slot is
not as it has to be.
-/

namespace Handoff

variable {α : Type}

/-- The slot after `index`, if that can be computed. -/
def nextIndex? (index capacity : UInt64) : Option UInt64 :=
  if capacity = 0 then none else (Word.add? index 1).map (· % capacity)

namespace Slots

/-- Whether a slot exists and is empty. -/
def vacant (s : Slots α) (i : UInt64) : Bool :=
  decide (i.toNat < s.cells.size) && (s.get? i).isNone

/-- Fills a slot that exists and is empty. -/
def write? (s : Slots α) (i : UInt64) (value : α) : Option (Slots α) :=
  if s.vacant i then some (s.write i value) else none

/-- Moves the value out of a slot that holds one. -/
def take? (s : Slots α) (i : UInt64) : Option (α × Slots α) :=
  (s.get? i).map fun value => (value, s.clear i)

theorem vacant_iff {s : Slots α} {i : UInt64} :
    s.vacant i = true ↔ i.toNat < s.cells.size ∧ s.get? i = none := by
  rw [vacant, Bool.and_eq_true, decide_eq_true_iff, Option.isNone_iff_eq_none]

theorem write?_of_vacant {s : Slots α} {i : UInt64} (h : s.vacant i = true) (value : α) :
    s.write? i value = some (s.write i value) :=
  if_pos h

theorem take?_of_get? {s : Slots α} {i : UInt64} {value : α} (h : s.get? i = some value) :
    s.take? i = some (value, s.clear i) := by
  rw [take?, h]
  rfl

end Slots

/-- A push into a plain ring that looks before it acts. -/
def Ring.push? (r : Ring α) (value : α) : Option (Pushed α × Ring α) := do
  let next ← nextIndex? r.write r.capacity
  if next = r.read then return (.refused value, r)
  else
    let slots ← r.slots.write? r.write value
    return (.accepted, { r with slots, write := next })

/-- A pop from a plain ring that looks before it acts. -/
def Ring.pop? (r : Ring α) : Option (Option α × Ring α) := do
  if r.read = r.write then return (none, r)
  else
    let (value, slots) ← r.slots.take? r.read
    let next ← nextIndex? r.read r.capacity
    return (some value, { r with slots, read := next })

/-- A push into a cached ring that looks before it acts. -/
def CachedRing.push? (r : CachedRing α) (value : α) : Option (Pushed α × CachedRing α) := do
  let next ← nextIndex? r.write r.capacity
  let r := r.renewReadCopy next
  if next = r.readCopy then return (.refused value, r)
  else
    let slots ← r.slots.write? r.write value
    return (.accepted, { r with slots, write := next })

/-- A pop from a cached ring that looks before it acts. -/
def CachedRing.pop? (r : CachedRing α) : Option (Option α × CachedRing α) := do
  let r := r.renewWriteCopy
  if r.read = r.writeCopy then return (none, r)
  else
    let (value, slots) ← r.slots.take? r.read
    let next ← nextIndex? r.read r.capacity
    return (some value, { r with slots, read := next })

/-- The next index of a slot can be computed: its successor is no greater than the number of slots,
which is a word. -/
theorem nextIndex?_of_lt {index capacity : UInt64} (h : index < capacity) :
    nextIndex? index capacity = some (nextIndex index capacity) := by
  have hlt : index.toNat < capacity.toNat := UInt64.lt_iff_toNat_lt.1 h
  have hword := capacity.toNat_lt_size
  have hone : (1 : UInt64).toNat = 1 := rfl
  have hpos : capacity ≠ 0 := fun e => by
    subst e
    exact Nat.not_lt_zero _ hlt
  have hsum : Word.add? index 1 = some (index + 1) := by
    rw [Word.add?_eq_some_iff, hone, Word.toNat_succ (by omega)]
  rw [nextIndex?, if_neg hpos, hsum]
  rfl

end Handoff
