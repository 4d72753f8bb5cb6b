import Handoff.Ring.Basic

/-!
# Bounded first-in first-out lists

What a ring does, without slots and indices: a list of at most `capacity - 1` values that grows at
one end and shrinks at the other.
-/

namespace Handoff

/-- A bounded list of values, the oldest first. -/
structure Fifo (α : Type) where
  capacity : UInt64
  items : List α
deriving Repr, DecidableEq

namespace Fifo

variable {α : Type}

/-- The empty list of a given capacity. -/
def ofCapacity (capacity : UInt64) : Fifo α :=
  ⟨capacity, []⟩

/-- Appends a value while there is room. -/
def push (q : Fifo α) (value : α) : Pushed α × Fifo α :=
  if q.items.length + 1 < q.capacity.toNat then
    (.accepted, { q with items := q.items ++ [value] })
  else (.refused value, q)

/-- Takes the oldest value. -/
def pop (q : Fifo α) : Option α × Fifo α :=
  (q.items.head?, { q with items := q.items.tail })

instance : Spsc (Fifo α) α where
  capacity := Fifo.capacity
  push := Fifo.push
  pop := Fifo.pop
  size q := q.items.length

end Fifo

end Handoff
