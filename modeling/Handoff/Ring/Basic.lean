/-!
# Rings for one producer and one consumer

A ring is a bounded queue over a fixed array of slots. The producer owns the index `write`, the
consumer the index `read`; the slots from `read` up to but excluding `write`, counted circularly,
hold values, and the others are empty. One slot is always left empty, since otherwise a full ring
would look like an empty one. So a ring of capacity `n` holds up to `n - 1` values, and a ring of
capacity one is always full.

Pushing into a full ring gives the value back, popping from an empty one gives nothing. `Spsc` is
what all kinds of rings offer; `Ring` is the plain kind, which looks at both indices every time.
-/

namespace Handoff

/-- Why a ring of some capacity cannot be made. -/
inductive CapacityError
  /-- There is no slot at all. -/
  | zero
  /-- The slots do not fit the address space. -/
  | tooLarge
deriving Repr, DecidableEq

/-- The text that reports an impossible capacity. -/
def CapacityError.message : CapacityError → String
  | .zero => "ring buffer capacity must be at least 1, got 0"
  | .tooLarge => "capacity overflow"

/-- What became of a value that was pushed. -/
inductive Pushed (α : Type)
  /-- The ring took the value. -/
  | accepted
  /-- The ring is full and gives the value back. -/
  | refused (value : α)
deriving Repr, DecidableEq

/-- A bounded queue that one side pushes into and the other pops from. -/
class Spsc (R : Type) (α : outParam Type) where
  /-- One more than the number of values that fit. -/
  capacity : R → UInt64
  /-- Appends a value, or gives it back if the queue is full. -/
  push : R → α → Pushed α × R
  /-- Takes the oldest value, if there is one. -/
  pop : R → Option α × R
  /-- The number of values inside. -/
  size : R → Nat

/-! ### Slots -/

/-- The storage of a ring: each slot is empty or holds a value. -/
structure Slots (α : Type) where
  cells : Array (Option α)
deriving Repr, DecidableEq

namespace Slots

variable {α : Type}

/-- Slots that are all empty. -/
def empty (capacity : UInt64) : Slots α :=
  ⟨Array.replicate capacity.toNat none⟩

/-- The value in a slot, `none` if the slot is empty or does not exist. -/
def get? (s : Slots α) (i : UInt64) : Option α :=
  (s.cells[i.toNat]?).join

/-- Fills a slot. -/
def write (s : Slots α) (i : UInt64) (value : α) : Slots α :=
  ⟨s.cells.setIfInBounds i.toNat (some value)⟩

/-- Empties a slot. -/
def clear (s : Slots α) (i : UInt64) : Slots α :=
  ⟨s.cells.setIfInBounds i.toNat none⟩

/-- Moves the value out of a slot, which is empty afterwards. -/
def take (s : Slots α) (i : UInt64) : Option α × Slots α :=
  (s.get? i, s.clear i)

end Slots

/-- The slot after `index`, counted circularly. -/
def nextIndex (index capacity : UInt64) : UInt64 :=
  (index + 1) % capacity

/-- The next index of a slot is computed without wrapping around the range of a word. -/
theorem toNat_nextIndex {index capacity : UInt64} (h : index < capacity) :
    (nextIndex index capacity).toNat = (index.toNat + 1) % capacity.toNat := by
  have hlt : index.toNat < capacity.toNat := UInt64.lt_iff_toNat_lt.1 h
  have hword := capacity.toNat_lt
  have hone : (1 : UInt64).toNat = 1 := rfl
  rw [nextIndex, UInt64.toNat_mod, UInt64.toNat_add, hone,
    Nat.mod_eq_of_lt (a := index.toNat + 1) (by omega)]

/-- Accepts the capacities of which a ring can be made: at least one slot, and no more than half
of the address space. -/
def checkCapacity (capacity : UInt64) : Except CapacityError Unit :=
  if capacity = 0 then .error .zero
  else if UInt64.size / 2 ≤ capacity.toNat then .error .tooLarge
  else .ok ()

/-! ### The plain ring -/

/-- A ring whose sides look at each other's index every time. -/
structure Ring (α : Type) where
  slots : Slots α
  capacity : UInt64
  /-- The slot to pop next. -/
  read : UInt64
  /-- The slot to push into next. -/
  write : UInt64
deriving Repr, DecidableEq

namespace Ring

variable {α : Type}

/-- The empty ring with a given number of slots. -/
def ofCapacity (capacity : UInt64) : Ring α :=
  ⟨.empty capacity, capacity, 0, 0⟩

/-- Makes an empty ring, if the capacity allows it. -/
def new (capacity : UInt64) : Except CapacityError (Ring α) := do
  checkCapacity capacity
  return ofCapacity capacity

/-- Pushes a value. The ring is full when `write` is right behind `read`. -/
def push (r : Ring α) (value : α) : Pushed α × Ring α :=
  let next := nextIndex r.write r.capacity
  if next = r.read then (.refused value, r)
  else (.accepted, { r with slots := r.slots.write r.write value, write := next })

/-- Pops a value. The ring is empty when the indices meet. -/
def pop (r : Ring α) : Option α × Ring α :=
  if r.read = r.write then (none, r)
  else
    let (value, slots) := r.slots.take r.read
    (value, { r with slots, read := nextIndex r.read r.capacity })

/-- The number of values, read off the indices. -/
def size (r : Ring α) : Nat :=
  (r.write.toNat + r.capacity.toNat - r.read.toNat) % r.capacity.toNat

instance : Spsc (Ring α) α where
  capacity := Ring.capacity
  push := Ring.push
  pop := Ring.pop
  size := Ring.size

/-- The values from the oldest to the newest: those of the slots from `read` on. -/
def toList (r : Ring α) : List α :=
  (List.range r.size).filterMap fun k =>
    (r.slots.cells[(r.read.toNat + k) % r.capacity.toNat]?).join

end Ring

end Handoff
