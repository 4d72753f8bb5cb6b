import Handoff.Lock.Queue
import Handoff.Threads.Basic

/-!
# The queue lock, access by access

Joining the queue, which makes a node the tail and links it behind the previous one, counts as one
access. The address of a new node is a choice; no node can be made where one lives. A node is gone
when the last access of its release is made.
-/

namespace Handoff.QueueLock

/-- Where a thread is in the code of the queue lock. -/
inductive Point
  | idle
  /-- In `lock`, before joining. -/
  | joining
  /-- The queue was empty: before the node is marked as the owner. -/
  | marking (a : Address)
  /-- In `lock`, before a look at the own node. -/
  | waiting (a : Address)
  | holding (a : Address)
  /-- In `tryLock`, before the swap of the tail. -/
  | trying
  /-- In the release, before the swap of the tail. -/
  | releasing (a : Address)
  /-- In the release, before a look at the link to the successor. -/
  | awaiting (a : Address)
  /-- In the release, before the successor is marked as the owner. -/
  | handing (a successor : Address)
deriving Repr, DecidableEq

/-- What a thread does next. -/
inductive Choice
  /-- Start a call. -/
  | lock
  | tryLock
  | unlock
  /-- Make the next access; a new node is made at an address. -/
  | proceed (a : Address)
deriving Repr, DecidableEq

/-- The address at which a choice makes a new node, if no node lives there. -/
def Choice.place? (l : QueueLock) : Choice → Option Address
  | .proceed a => if (l.heap.get? a).isNone then some a else none
  | _ => none

/-- One access of a thread. -/
def access (choice : Choice) (l : QueueLock) : Point → QueueLock × Point
  | .idle =>
    match choice with
    | .lock => (l, .joining)
    | .tryLock => (l, .trying)
    | _ => (l, .idle)
  | .joining =>
    match choice.place? l with
    | none => (l, .joining)
    | some a =>
      match l.join a with
      | (none, l) => (l, .marking a)
      | (some _, l) => (l, .waiting a)
  | .trying =>
    match choice.place? l with
    | none => (l, .trying)
    | some a =>
      match { l with heap := l.heap.alloc a .new }.swapTail none (some a) with
      | (true, l) => (l, .marking a)
      | (false, l) => ({ l with heap := l.heap.free a }, .idle)
  | .marking a => (l.makeOwner a, .holding a)
  | .waiting a => (l, if l.owns a then .holding a else .waiting a)
  | .holding a => (l, if choice = .unlock then .releasing a else .holding a)
  | .releasing a =>
    match l.swapTail (some a) none with
    | (true, l) => ({ l with heap := l.heap.free a }, .idle)
    | (false, l) => (l, .awaiting a)
  | .awaiting a =>
    match l.successor? a with
    | none => (l, .awaiting a)
    | some b => (l, .handing a b)
  | .handing a b =>
    let l := l.makeOwner b
    ({ l with heap := l.heap.free a }, .idle)

/-- The queue lock as threads run it. -/
def code (ι : Type) : LockCode ι where
  Memory := QueueLock
  Point := Point
  Choice := Choice
  memory := new
  entry := .idle
  step _ := access
  lockEntry := .joining
  unlockEntry
    | .holding a => .releasing a
    | p => p
  owns
    | .holding _ => true
    | _ => false
  idle p := p = .idle
  broken _ := false

end Handoff.QueueLock
