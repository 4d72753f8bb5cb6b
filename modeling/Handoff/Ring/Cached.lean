import Handoff.Ring.Basic

/-!
# Rings with remembered indices

In a plain ring each push looks at `read` and each pop at `write`, although a side needs the other
one's index only to tell full from empty. In a `CachedRing` each side remembers the index it saw
last and looks again only when that makes the ring seem full, or empty. An old copy is on the safe
side: the copy of `read` can only make the ring look fuller than it is, the copy of `write` only
emptier.
-/

namespace Handoff

/-- A ring whose sides remember each other's index. -/
structure CachedRing (α : Type) where
  slots : Slots α
  capacity : UInt64
  /-- The slot to pop next. -/
  read : UInt64
  /-- The consumer's copy of `write`. -/
  writeCopy : UInt64
  /-- The slot to push into next. -/
  write : UInt64
  /-- The producer's copy of `read`. -/
  readCopy : UInt64
deriving Repr, DecidableEq

namespace CachedRing

variable {α : Type}

/-- The empty ring with a given number of slots. -/
def ofCapacity (capacity : UInt64) : CachedRing α :=
  ⟨.empty capacity, capacity, 0, 0, 0, 0⟩

/-- Makes an empty ring, if the capacity allows it. -/
def new (capacity : UInt64) : Except CapacityError (CachedRing α) := do
  checkCapacity capacity
  return ofCapacity capacity

/-- The producer's copy of `read` as a push to the slot before `next` leaves it: looked up again if
the ring seems full. -/
def renewReadCopy (r : CachedRing α) (next : UInt64) : CachedRing α :=
  if next = r.readCopy then { r with readCopy := r.read } else r

/-- The consumer's copy of `write` as a pop leaves it: looked up again if the ring seems empty. -/
def renewWriteCopy (r : CachedRing α) : CachedRing α :=
  if r.read = r.writeCopy then { r with writeCopy := r.write } else r

/-- Pushes a value. The ring is full when `write` is right behind the renewed copy of `read`. -/
def push (r : CachedRing α) (value : α) : Pushed α × CachedRing α :=
  let next := nextIndex r.write r.capacity
  let r := r.renewReadCopy next
  if next = r.readCopy then (.refused value, r)
  else (.accepted, { r with slots := r.slots.write r.write value, write := next })

/-- Pops a value. The ring is empty when `read` meets the renewed copy of `write`. -/
def pop (r : CachedRing α) : Option α × CachedRing α :=
  let r := r.renewWriteCopy
  if r.read = r.writeCopy then (none, r)
  else
    let (value, slots) := r.slots.take r.read
    (value, { r with slots, read := nextIndex r.read r.capacity })

/-- The ring without the copies. -/
def toRing (r : CachedRing α) : Ring α :=
  ⟨r.slots, r.capacity, r.read, r.write⟩

/-- The values from the oldest to the newest. -/
def toList (r : CachedRing α) : List α := r.toRing.toList

instance : Spsc (CachedRing α) α where
  capacity := CachedRing.capacity
  push := CachedRing.push
  pop := CachedRing.pop
  size r := r.toRing.size

end CachedRing

end Handoff
