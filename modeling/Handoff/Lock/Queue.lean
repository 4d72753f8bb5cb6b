import Handoff.Lock.Basic

/-!
# The queue lock

The threads that hold or wait form a queue of nodes, each in its own thread's memory, and the lock
knows only the last of them, the *tail*. A thread joins in two steps: it makes its node the tail,
and it links the node that was the tail before to its own. Then it waits on its own node, until the
thread in front says that it owns the lock. A release takes the tail back if nobody is behind, and
otherwise hands the lock over to the node that is linked behind.

A node lives as long as the call that made it; afterwards its address may be used again. Here the
two steps of joining count as one.
-/

namespace Handoff

/-- Where a node is in memory. -/
abbrev Address := Nat

/-- A place in the queue. -/
structure Node where
  /-- The node behind this one, once it has linked itself in. -/
  next : Option Address
  /-- Whether the node's thread owns the lock. -/
  isOwner : Bool
deriving Repr, DecidableEq

/-- A node that nobody has seen yet. -/
def Node.new : Node := ⟨none, false⟩

/-! ### Memory -/

/-- The nodes of the calls that have not ended, by address. -/
structure Heap where
  nodes : List (Address × Node)
deriving Repr, DecidableEq

namespace Heap

/-- The node at an address, if a node lives there. -/
def get? (h : Heap) (a : Address) : Option Node :=
  h.nodes.lookup a

/-- Puts a node at an address where none lives. -/
def alloc (h : Heap) (a : Address) (node : Node) : Heap :=
  ⟨(a, node) :: h.nodes⟩

/-- Changes the node at an address. -/
def modify (h : Heap) (a : Address) (f : Node → Node) : Heap :=
  ⟨h.nodes.map fun (b, node) => if b = a then (b, f node) else (b, node)⟩

/-- Ends the life of the node at an address. -/
def free (h : Heap) (a : Address) : Heap :=
  ⟨h.nodes.filter fun (b, _) => b ≠ a⟩

/-- The least address at which no node lives. -/
def fresh (h : Heap) : Address :=
  ((List.range h.nodes.length).find? fun a => (h.get? a).isNone).getD h.nodes.length

theorem lookup_cons_eq_ite (a b : Address) (node : Node) (nodes : List (Address × Node)) :
    ((a, node) :: nodes).lookup b = if b = a then some node else nodes.lookup b := by
  by_cases h : b = a
  · simp [h]
  · simp [List.lookup_cons, h, beq_false_of_ne h]

theorem get?_alloc (h : Heap) (a b : Address) (node : Node) :
    (h.alloc a node).get? b = if b = a then some node else h.get? b :=
  lookup_cons_eq_ite a b node h.nodes

theorem get?_modify (h : Heap) (a b : Address) (f : Node → Node) :
    (h.modify a f).get? b = if b = a then (h.get? b).map f else h.get? b := by
  obtain ⟨nodes⟩ := h
  simp only [get?, modify]
  induction nodes with
  | nil => simp
  | cons entry nodes ih =>
    obtain ⟨c, node⟩ := entry
    rw [List.map_cons]
    by_cases hc : c = a
    · simp only [hc, if_true, lookup_cons_eq_ite, ih]
      by_cases hb : b = a <;> simp [hb]
    · simp only [hc, if_false, lookup_cons_eq_ite, ih]
      by_cases hb : b = c
      · simp [hb, hc]
      · simp [hb]

theorem get?_free (h : Heap) (a b : Address) :
    (h.free a).get? b = if b = a then none else h.get? b := by
  obtain ⟨nodes⟩ := h
  simp only [get?, free]
  induction nodes with
  | nil => simp
  | cons entry nodes ih =>
    obtain ⟨c, node⟩ := entry
    by_cases hc : c = a
    · simp only [hc, List.filter_cons, ne_eq, not_true_eq_false, decide_false, lookup_cons_eq_ite]
      by_cases hb : b = a
      · simp only [hb, if_true] at ih ⊢
        exact ih
      · simp only [hb, if_false] at ih ⊢
        exact ih
    · simp only [hc, List.filter_cons, ne_eq, not_false_eq_true, decide_true, if_true,
        lookup_cons_eq_ite]
      by_cases hb : b = c
      · simp [hb, hc]
      · simp only [hb, if_false]
        exact ih

/-- Giving back the node that was just made leaves no trace. -/
theorem free_alloc {h : Heap} {a : Address} (ha : h.get? a = none) (node : Node) :
    (h.alloc a node).free a = h := by
  obtain ⟨nodes⟩ := h
  have hne : ∀ entry ∈ nodes, entry.1 ≠ a := by
    rintro ⟨b, n⟩ hmem rfl
    exact absurd (List.lookup_eq_none_iff.1 ha (b, n) hmem) (by simp)
  simp only [alloc, free, List.filter_cons, ne_eq, not_true_eq_false, decide_false]
  exact congrArg Heap.mk (List.filter_eq_self.2 fun entry hmem => by simpa using hne entry hmem)

end Heap

/-! ### The lock -/

/-- A queue lock: the tail, and the nodes it can reach. -/
structure QueueLock where
  tail : Option Address
  heap : Heap
deriving Repr, DecidableEq

namespace QueueLock

/-- A lock with an empty queue. -/
def new : QueueLock := ⟨none, ⟨[]⟩⟩

/-- Marks a node as the owner. -/
def makeOwner (l : QueueLock) (a : Address) : QueueLock :=
  { l with heap := l.heap.modify a fun node => { node with isOwner := true } }

/-- Makes a new node at `a` the tail and links it behind the previous tail, which is returned. -/
def join (l : QueueLock) (a : Address) : Option Address × QueueLock :=
  let previous := l.tail
  let heap := l.heap.alloc a .new
  match previous with
  | none => (previous, ⟨some a, heap⟩)
  | some p => (previous, ⟨some a, heap.modify p fun node => { node with next := some a }⟩)

/-- One compare-and-swap of the tail. -/
def swapTail (l : QueueLock) (expected new : Option Address) : Bool × QueueLock :=
  if l.tail = expected then (true, { l with tail := new }) else (false, l)

/-- Joins the queue with a new node at `a`; the first in an empty queue owns the lock. -/
def acquire (l : QueueLock) (a : Address) : QueueLock :=
  match l.join a with
  | (none, l) => l.makeOwner a
  | (some _, l) => l

/-- Joins the queue with a new node at `a` only if it is empty. The node of an attempt that fails
is gone when the call ends. -/
def tryAcquire (l : QueueLock) (a : Address) : Bool × QueueLock :=
  match { l with heap := l.heap.alloc a .new }.swapTail none (some a) with
  | (true, l) => (true, l.makeOwner a)
  | (false, l) => (false, { l with heap := l.heap.free a })

/-- Whether the node at `a` owns the lock. -/
def owns (l : QueueLock) (a : Address) : Bool :=
  ((l.heap.get? a).map Node.isOwner).getD false

/-- The node that is linked behind the one at `a`. -/
def successor? (l : QueueLock) (a : Address) : Option Address :=
  (l.heap.get? a).bind Node.next

/-- Leaves the queue with the node at `a`, which is gone afterwards. If the node is not the tail,
its successor becomes the owner; a successor that is not linked in yet has to be waited for. -/
def release (l : QueueLock) (a : Address) : Except Fault QueueLock :=
  match l.swapTail (some a) none with
  | (true, l) => .ok { l with heap := l.heap.free a }
  | (false, l) =>
    match l.successor? a with
    | none => .error .successorUnlinked
    | some b =>
      let l := l.makeOwner b
      .ok { l with heap := l.heap.free a }

/-- How a closure that runs under the lock comes to its end. -/
inductive Exit (ρ : Type)
  | returned (result : ρ)
  /-- It panicked. -/
  | unwound
deriving Repr, DecidableEq

/-- The end of the call that holds the lock with its node at `a`: its closure runs on the value
behind the lock, and then the guard is dropped, which releases the lock. How the closure ended is
passed on: a result is returned, and a panic unwinds further. -/
def leave {υ ρ : Type} (l : QueueLock) (a : Address) (closure : υ → Exit ρ × υ) (value : υ) :
    Except Fault (Exit ρ × υ × QueueLock) := do
  let (exit, value) := closure value
  let l ← l.release a
  return (exit, value, l)

/-- If the guard can be dropped, a call ends as its closure does. -/
theorem leave_of_release {υ ρ : Type} {l l' : QueueLock} {a : Address}
    (h : l.release a = .ok l') (closure : υ → Exit ρ × υ) (value : υ) :
    l.leave a closure value = .ok ((closure value).1, (closure value).2, l') := by
  rw [leave, h]
  rfl

/-- Whether somebody holds the lock or waits for it. -/
def isLocked (l : QueueLock) : Bool :=
  l.tail.isSome

/-- The queue lock as a `RawLock`; a pass is the address of a node. There is no release without
one. -/
def raw : RawLock where
  State := QueueLock
  Pass := Address
  new := new
  fair := true
  tryLock l :=
    let a := l.heap.fresh
    let (won, l) := l.tryAcquire a
    .ok (if won then some a else none, l)
  lock l :=
    let a := l.heap.fresh
    let l := l.acquire a
    ⟨l, a, l.owns a, none⟩
  recheck a l := (l.owns a, l)
  unlock a l := return ⟨← l.release a, true⟩
  unlockUnheld := none
  timed := none
  view l := ⟨l.isLocked, none, none⟩

end QueueLock

end Handoff
