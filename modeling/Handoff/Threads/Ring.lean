import Handoff.Ring.Cached
import Handoff.Ring.Transfer
import Handoff.Threads.Basic

/-!
# The rings, access by access

The producer and the consumer of a ring, each with its own sequence of calls. Every look at an
index, every use of a copy of an index, every use of a slot and every change of an index is an
access of its own. Both kinds of ring run here over the memory of a `CachedRing`; the plain kind
never touches the copies.
-/

namespace Handoff.RingCode

/-- Whether the sides remember each other's index. -/
inductive Kind
  | plain
  | cached
deriving Repr, DecidableEq

/-- Where a side is in its code. -/
inductive Point (α : Type)
  | idle
  /-- In a push, before reading `write`. -/
  | pushing (value : α)
  /-- In a push, before a look at the copy of `read`. -/
  | pushCopy (value : α) (write : UInt64)
  /-- In a push, before reading `read`. -/
  | pushLook (value : α) (write : UInt64)
  /-- In a push, before the copy of `read` is renewed. -/
  | pushRenew (value : α) (write read : UInt64)
  /-- In a push, before a look at the renewed copy of `read`. -/
  | pushAgain (value : α) (write : UInt64)
  /-- In a push, before the slot is filled. -/
  | filling (value : α) (write : UInt64)
  /-- In a push, before `write` is changed. -/
  | publishing (value : α) (write : UInt64)
  /-- The push has returned. -/
  | pushed (result : Pushed α)
  /-- In a pop, before reading `read`. -/
  | popping
  /-- In a pop, before a look at the copy of `write`. -/
  | popCopy (read : UInt64)
  /-- In a pop, before reading `write`. -/
  | popLook (read : UInt64)
  /-- In a pop, before the copy of `write` is renewed. -/
  | popRenew (read write : UInt64)
  /-- In a pop, before a look at the renewed copy of `write`. -/
  | popAgain (read : UInt64)
  /-- In a pop, before the value is taken out of the slot. -/
  | taking (read : UInt64)
  /-- In a pop, before `read` is changed. -/
  | vacating (value : Option α) (read : UInt64)
  /-- The pop has returned. -/
  | popped (value : Option α)
deriving Repr, DecidableEq

/-- What a side does next. -/
inductive Choice (α : Type)
  /-- Start a push; for the producer only. -/
  | push (value : α)
  /-- Start a pop; for the consumer only. -/
  | pop
  /-- Make the next access. -/
  | proceed
deriving Repr, DecidableEq

variable {α : Type}

/-- The start of a call by a side that has none under way. -/
def call (side : Side) (choice : Choice α) (p : Point α) : Point α :=
  match side, choice with
  | .producer, .push value => .pushing value
  | .consumer, .pop => .popping
  | _, _ => p

/-- Where a push goes that has an index to compare with. -/
def compareFull (capacity : UInt64) (value : α) (write read : UInt64) (full : Point α) : Point α :=
  if nextIndex write capacity = read then full else .filling value write

/-- Where a pop goes that has an index to compare with. -/
def compareEmpty (read write : UInt64) (empty : Point α) : Point α :=
  if read = write then empty else .taking read

/-- One access of a side. -/
def access (kind : Kind) (side : Side) (choice : Choice α) (r : CachedRing α) :
    Point α → CachedRing α × Point α
  | .idle => (r, call side choice .idle)
  | .pushed result => (r, call side choice (.pushed result))
  | .popped value => (r, call side choice (.popped value))
  | .pushing value =>
    (r, match kind with
      | .plain => .pushLook value r.write
      | .cached => .pushCopy value r.write)
  | .pushCopy value write =>
    (r, compareFull r.capacity value write r.readCopy (.pushLook value write))
  | .pushLook value write =>
    (r, match kind with
      | .plain => compareFull r.capacity value write r.read (.pushed (.refused value))
      | .cached => .pushRenew value write r.read)
  | .pushRenew value write read => ({ r with readCopy := read }, .pushAgain value write)
  | .pushAgain value write =>
    (r, compareFull r.capacity value write r.readCopy (.pushed (.refused value)))
  | .filling value write =>
    ({ r with slots := r.slots.write write value }, .publishing value write)
  | .publishing _ write =>
    ({ r with write := nextIndex write r.capacity }, .pushed .accepted)
  | .popping =>
    (r, match kind with
      | .plain => .popLook r.read
      | .cached => .popCopy r.read)
  | .popCopy read => (r, compareEmpty read r.writeCopy (.popLook read))
  | .popLook read =>
    (r, match kind with
      | .plain => compareEmpty read r.write (.popped none)
      | .cached => .popRenew read r.write)
  | .popRenew read write => ({ r with writeCopy := write }, .popAgain read)
  | .popAgain read => (r, compareEmpty read r.writeCopy (.popped none))
  | .taking read =>
    let (value, slots) := r.slots.take read
    ({ r with slots }, .vacating value read)
  | .vacating value read => ({ r with read := nextIndex read r.capacity }, .popped value)

/-- A ring as its two sides run it. -/
def code (α : Type) (kind : Kind) (capacity : UInt64) : Program Side where
  Memory := CachedRing α
  Point := Point α
  Choice := Choice α
  memory := .ofCapacity capacity
  entry := .idle
  step := access kind

end Handoff.RingCode
