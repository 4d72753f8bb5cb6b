import Handoff.Proofs.Lock.Queue

/-!
# The calls of a queue lock

Calls come to a queue lock, each with a node of its own at an address that its caller's memory
happens to have free, wait on their nodes, run their closures, and end (`QueueLock.Calls`). An
address may be used again as soon as the call that had its node there has ended.

All there is of the queue is the tail and the links from node to node. `QueueLock.calls_form_line`
says that they are the list of the calls that have not ended, in the order in which they came
(`QueueLock.Linked`), whatever addresses the nodes are at; that the call at the head of the list is
in its closure, and no other; and that a call which ends hands the lock to the next one and to
nobody else (`QueueLock.HandedOver`). The lists themselves follow rules that know nothing of nodes
(`QueueLock.Event.shift`).
-/

namespace Handoff.QueueLock

/-! ### Calls -/

/-- A call that has not ended. -/
structure Call where
  node : Address
  /-- Whether the call is in its closure; otherwise it waits. -/
  inside : Bool
deriving Repr, DecidableEq

/-- A queue lock and its calls. -/
structure Calls where
  lock : QueueLock
  /-- The calls that have not ended, in the order in which they came. -/
  calls : List Call
deriving Repr, DecidableEq

/-- What happens to a queue lock. -/
inductive Event
  /-- A call comes, with its node at an address, and waits for its turn. -/
  | come (a : Address)
  /-- A call comes that goes away unless it is its turn at once. -/
  | attempt (a : Address)
  /-- The closure of the call with its node at an address comes to its end. -/
  | leave (a : Address) (exit : Exit Unit)
deriving Repr, DecidableEq

namespace Calls

/-- A lock without calls. -/
def new : Calls := ⟨QueueLock.new, []⟩

/-- Every waiting call looks at its own node. -/
def look (c : Calls) : Calls :=
  { c with calls := c.calls.map fun call =>
      { call with inside := call.inside || c.lock.owns call.node } }

/-- What an event does. No node can be made where one lives, and only a call that is in its closure
can leave it; an event that is not possible does nothing. -/
def step (c : Calls) : Event → Except Fault Calls
  | .come a =>
    if (c.lock.heap.get? a).isSome then .ok c
    else .ok (look ⟨c.lock.acquire a, c.calls ++ [⟨a, c.lock.tail.isNone⟩]⟩)
  | .attempt a =>
    if (c.lock.heap.get? a).isSome then .ok c
    else
      match c.lock.tryAcquire a with
      | (true, l) => .ok ⟨l, c.calls ++ [⟨a, true⟩]⟩
      | (false, l) => .ok ⟨l, c.calls⟩
  | .leave a exit =>
    if ⟨a, true⟩ ∈ c.calls then
      match c.lock.leave a (fun value => (exit, value)) () with
      | .error fault => .error fault
      | .ok (_, _, l) => .ok (look ⟨l, c.calls.filter fun call => call.node ≠ a⟩)
    else .ok c

/-- What events do one after the other. -/
def run (c : Calls) : List Event → Except Fault Calls
  | [] => .ok c
  | event :: events =>
    match c.step event with
    | .error fault => .error fault
    | .ok c => c.run events

end Calls

/-- What an event does to the list of the nodes. -/
def Event.shift (line : List Address) : Event → List Address
  | .come a => if a ∈ line then line else line ++ [a]
  | .attempt a => if line = [] then [a] else line
  | .leave a _ => if line.head? = some a then line.tail else line

/-! ### Lists of nodes -/

/-- The memory of a lock is a list of nodes: the tail is the last one, each is linked to the next,
the first one owns the lock, and no other node lives. -/
structure Linked (l : QueueLock) (nodes : List Address) : Prop where
  nodup : nodes.Nodup
  tail : l.tail = nodes.getLast?
  node : ∀ i a, nodes[i]? = some a → l.heap.get? a = some ⟨nodes[i + 1]?, decide (i = 0)⟩
  live_iff : ∀ a, (l.heap.get? a).isSome ↔ a ∈ nodes

/-- A node is gone, its heir, if there is one, owns the lock, and else the tail is taken back. -/
structure HandedOver (l : QueueLock) (a : Address) (heir? : Option Address) (l' : QueueLock) :
    Prop where
  tail : l'.tail = if heir?.isSome then l.tail else none
  gone : l'.heap.get? a = none
  heir : ∀ b, heir? = some b →
    l'.heap.get? b = (l.heap.get? b).map fun node => { node with isOwner := true }
  others : ∀ b, b ≠ a → heir? ≠ some b → l'.heap.get? b = l.heap.get? b

namespace Linked

variable {l : QueueLock} {nodes : List Address} {a b : Address} {node : Node}

theorem tail_live (h : l.Linked nodes) (ha : l.tail = some a) : (l.heap.get? a).isSome :=
  (h.live_iff a).2 (List.mem_of_getLast? (h.tail.symm.trans ha))

/-- A node is linked to one that lives, too. -/
theorem next_live (h : l.Linked nodes) (ha : l.heap.get? a = some node) (hb : node.next = some b) :
    (l.heap.get? b).isSome := by
  have hmem : a ∈ nodes := (h.live_iff a).1 (ha ▸ rfl)
  obtain ⟨i, hi⟩ := List.mem_iff_getElem?.1 hmem
  obtain rfl : node = ⟨nodes[i + 1]?, decide (i = 0)⟩ :=
    Option.some.inj (ha.symm.trans (h.node i a hi))
  exact (h.live_iff b).2 (List.mem_of_getElem? hb)

end Linked

/-- Each node of a list is linked to the one behind it, and the first one may own the lock. -/
theorem placed_of_getElem? {owner : Bool} {nodes : List Address} (hnodup : nodes.Nodup) {i : Nat}
    {a : Address} (ha : nodes[i]? = some a) :
    placed owner nodes a = some ⟨nodes[i + 1]?, owner && decide (i = 0)⟩ := by
  induction nodes generalizing owner i with
  | nil => exact nomatch ha
  | cons b nodes ih =>
    obtain ⟨hb, hrest⟩ := List.nodup_cons.1 hnodup
    cases i with
    | zero =>
      obtain rfl : b = a := Option.some.inj ha
      rw [placed_self, List.getElem?_cons_succ, List.head?_eq_getElem?, decide_eq_true rfl,
        Bool.and_true]
    | succ i =>
      rw [List.getElem?_cons_succ] at ha
      have hne : a ≠ b := fun e => hb (e ▸ List.mem_of_getElem? ha)
      rw [placed_of_ne hne, ih hrest ha, List.getElem?_cons_succ, Bool.false_and,
        decide_eq_false (Nat.succ_ne_zero i), Bool.and_false]

namespace IsQueue

variable {l l' : QueueLock} {line : List Address} {a : Address}

theorem linked (h : l.IsQueue line) : l.Linked line where
  nodup := h.nodup
  tail := h.tail
  node := fun i a ha => by rw [h.heap, placed_of_getElem? h.nodup ha, Bool.true_and]
  live_iff := fun a => by
    rw [h.heap, Option.isSome_iff_ne_none, ne_eq, placed_eq_none_iff, not_not]

/-- The head of the line owns the lock, and no other node does. -/
theorem owns_eq (h : l.IsQueue line) (a : Address) : l.owns a = decide (line.head? = some a) := by
  cases line with
  | nil =>
    rw [owns, h.heap]
    rfl
  | cons b line =>
    rw [h.owns_cons, List.head?_cons]
    exact decide_eq_decide.2
      ⟨fun e => congrArg some e.symm, fun e => (Option.some.inj e).symm⟩

/-- A node that leaves the head of the line hands the lock over to the next one. -/
theorem handedOver (h : l.IsQueue (a :: line)) (h' : l'.IsQueue line) :
    HandedOver l a line.head? l' := by
  obtain ⟨ha, -⟩ := List.nodup_cons.1 h.nodup
  refine ⟨?_, ?_, fun b hb => ?_, fun b hba hb => ?_⟩
  · rw [h'.tail, h.tail]
    cases line with
    | nil => rfl
    | cons b line => rw [List.getLast?_cons_cons, List.head?_cons, Option.isSome_some, if_pos rfl]
  · rw [h'.heap, placed_eq_none_iff]
    exact ha
  · cases line with
    | nil => exact nomatch hb
    | cons c line =>
      obtain rfl : c = b := Option.some.inj hb
      have hne : c ≠ a := fun e => ha (e ▸ List.mem_cons_self)
      rw [h'.heap, h.heap, placed_of_ne hne, placed_self, placed_self]
      rfl
  · rw [h'.heap, h.heap, placed_of_ne hba]
    cases line with
    | nil => rfl
    | cons c line =>
      have hne : b ≠ c := fun e => hb (congrArg some e.symm)
      rw [placed_of_ne hne, placed_of_ne hne]

/-- The head of the line can drop its guard, and then the line is without it. -/
theorem release (h : l.IsQueue (a :: line)) : ∃ l', l.release a = .ok l' ∧ l'.IsQueue line := by
  cases line with
  | nil => exact h.release_last
  | cons b line => exact h.release_next

/-- The link to the next node is there when the head of the line looks for it. -/
theorem successor?_head (h : l.IsQueue (a :: line)) : l.successor? a = line.head? :=
  h.isLine.successor?_head

/-- An attempt succeeds in an empty line only, and else changes nothing. -/
theorem tryAcquire (h : l.IsQueue line) (ha : l.heap.get? a = none) :
    l.tryAcquire a = if line = [] then (true, l.acquire a) else (false, l) := by
  cases line with
  | nil => exact h.tryAcquire_nil a
  | cons b line => exact h.tryAcquire_cons ha

end IsQueue

/-! ### Runs -/

/-- The calls with their nodes in a line: the first one is in its closure. -/
def callsOf (line : List Address) : List Call :=
  line.map fun a => ⟨a, decide (line.head? = some a)⟩

theorem map_node_callsOf (line : List Address) : (callsOf line).map Call.node = line := by
  rw [callsOf, List.map_map]
  exact List.map_id line

theorem mem_callsOf {line : List Address} {a : Address} :
    ⟨a, true⟩ ∈ callsOf line ↔ line.head? = some a := by
  rw [callsOf, List.mem_map]
  constructor
  · rintro ⟨b, -, hb⟩
    rw [Call.mk.injEq, decide_eq_true_eq] at hb
    exact hb.1 ▸ hb.2
  · intro ha
    exact ⟨a, List.mem_of_mem_head? ha, congrArg (Call.mk a) (decide_eq_true ha)⟩

/-- The calls behind the first one wait. -/
theorem filter_callsOf {heirs : List Address} {a : Address} (ha : a ∉ heirs) :
    (callsOf (a :: heirs)).filter (fun call => call.node ≠ a) = heirs.map fun b => ⟨b, false⟩ := by
  have hne : ∀ b ∈ heirs, b ≠ a := fun b hb e => ha (e ▸ hb)
  have hbehind : heirs.map (fun b => (⟨b, decide ((a :: heirs).head? = some b)⟩ : Call)) =
      heirs.map fun b => ⟨b, false⟩ := by
    refine List.map_congr_left fun b hb => congrArg (Call.mk b) (decide_eq_false fun e => ?_)
    exact hne b hb (Option.some.inj e).symm
  have hkept : ∀ call ∈ heirs.map (fun b => (⟨b, false⟩ : Call)),
      decide (call.node ≠ a) = true := by
    intro call hcall
    obtain ⟨b, hb, rfl⟩ := List.mem_map.1 hcall
    exact decide_eq_true (hne b hb)
  rw [callsOf, List.map_cons, hbehind, List.filter_cons_of_neg (by simp),
    List.filter_eq_self.2 hkept]

/-- The nodes of the calls are a line, and the first of it is in its closure. -/
structure Settled (c : Calls) (line : List Address) : Prop where
  queue : c.lock.IsQueue line
  calls : c.calls = callsOf line

/-- When every call has looked at its own node, exactly the first one has found that it owns the
lock. -/
theorem settled_look {l : QueueLock} {calls : List Call} {line : List Address}
    (h : l.IsQueue line) (hnodes : calls.map Call.node = line)
    (hinside : ∀ call ∈ calls, call.inside = true → line.head? = some call.node) :
    Settled (Calls.look ⟨l, calls⟩) line := by
  refine ⟨h, ?_⟩
  have hlook : ∀ call ∈ calls, ({ call with inside := call.inside || l.owns call.node } : Call) =
      ⟨call.node, decide (line.head? = some call.node)⟩ := by
    intro call hcall
    rw [h.owns_eq]
    cases hin : call.inside with
    | false => rw [Bool.false_or]
    | true => rw [Bool.true_or, decide_eq_true (hinside call hcall hin)]
  calc calls.map (fun call => { call with inside := call.inside || l.owns call.node })
      = calls.map (fun call => ⟨call.node, decide (line.head? = some call.node)⟩) :=
        List.map_congr_left hlook
    _ = (calls.map Call.node).map fun a => ⟨a, decide (line.head? = some a)⟩ := by
        rw [List.map_map]
        rfl
    _ = callsOf line := by rw [hnodes, callsOf]

namespace Settled

variable {c : Calls} {line : List Address}

theorem isSome_iff (h : Settled c line) (a : Address) :
    (c.lock.heap.get? a).isSome = true ↔ a ∈ line :=
  h.queue.linked.live_iff a

theorem get?_eq_none (h : Settled c line) {a : Address} (ha : a ∉ line) :
    c.lock.heap.get? a = none := by
  rw [h.queue.heap, placed_eq_none_iff]
  exact ha

theorem come (h : Settled c line) (a : Address) :
    ∃ c', c.step (.come a) = .ok c' ∧ Settled c' (Event.shift line (.come a)) := by
  rw [Calls.step, Event.shift]
  by_cases ha : a ∈ line
  · rw [if_pos ((h.isSome_iff a).2 ha), if_pos ha]
    exact ⟨c, rfl, h⟩
  · rw [if_neg (mt (h.isSome_iff a).1 ha), if_neg ha]
    refine ⟨_, rfl, settled_look (h.queue.acquire (h.get?_eq_none ha)) ?_ ?_⟩
    · rw [List.map_append, h.calls, map_node_callsOf]
      rfl
    · intro call hcall hin
      obtain ⟨node, inside⟩ := call
      obtain rfl : inside = true := hin
      rw [List.mem_append, h.calls, mem_callsOf, List.mem_singleton, Call.mk.injEq] at hcall
      rcases hcall with hhead | ⟨rfl, hempty⟩
      · rw [List.head?_append, hhead]
        rfl
      · -- the new call enters at once only if there was no tail
        have htail : line.getLast? = none := by
          rw [← h.queue.tail]
          exact Option.isNone_iff_eq_none.1 hempty.symm
        rw [List.getLast?_eq_none_iff.1 htail]
        rfl

theorem attempt (h : Settled c line) (a : Address) :
    ∃ c', c.step (.attempt a) = .ok c' ∧ Settled c' (Event.shift line (.attempt a)) := by
  rw [Calls.step, Event.shift]
  by_cases ha : a ∈ line
  · rw [if_pos ((h.isSome_iff a).2 ha), if_neg (List.ne_nil_of_mem ha)]
    exact ⟨c, rfl, h⟩
  · rw [if_neg (mt (h.isSome_iff a).1 ha), h.queue.tryAcquire (h.get?_eq_none ha)]
    by_cases hempty : line = []
    · subst hempty
      rw [if_pos rfl, if_pos rfl]
      refine ⟨_, rfl, h.queue.acquire_nil a, ?_⟩
      rw [h.calls]
      simp [callsOf]
    · rw [if_neg hempty, if_neg hempty]
      exact ⟨c, rfl, h⟩

theorem leave (h : Settled c line) (a : Address) (exit : Exit Unit) :
    ∃ c', c.step (.leave a exit) = .ok c' ∧ Settled c' (Event.shift line (.leave a exit)) := by
  rw [Calls.step, Event.shift, h.calls]
  by_cases hhead : line.head? = some a
  · obtain ⟨heirs, rfl⟩ : ∃ heirs, line = a :: heirs := by
      cases line with
      | nil => exact nomatch hhead
      | cons b heirs => exact ⟨heirs, congrArg (· :: heirs) (Option.some.inj hhead)⟩
    obtain ⟨l', hrelease, hqueue⟩ := h.queue.release
    obtain ⟨ha, -⟩ := List.nodup_cons.1 h.queue.nodup
    rw [if_pos (mem_callsOf.2 hhead), if_pos hhead, leave_of_release hrelease, filter_callsOf ha]
    refine ⟨_, rfl, settled_look hqueue ?_ ?_⟩
    · rw [List.map_map]
      exact List.map_id heirs
    · intro call hcall hin
      obtain ⟨b, -, rfl⟩ := List.mem_map.1 hcall
      exact nomatch hin
  · rw [if_neg (mt mem_callsOf.1 hhead), if_neg hhead]
    exact ⟨c, rfl, h⟩

/-- The event that ends a call does the same however the closure of the call ended. -/
theorem step_leave (h : Settled c line) (a : Address) (exit exit' : Exit Unit) :
    c.step (.leave a exit) = c.step (.leave a exit') := by
  rw [Calls.step, Calls.step]
  by_cases hhead : ⟨a, true⟩ ∈ c.calls
  · obtain ⟨heirs, rfl⟩ := List.head?_eq_some_iff.1 (mem_callsOf.1 (h.calls ▸ hhead))
    obtain ⟨l', hrelease, -⟩ := h.queue.release
    rw [leave_of_release hrelease, leave_of_release hrelease]
  · rw [if_neg hhead, if_neg hhead]

/-- Every event does to the nodes what it does to the line. -/
theorem step (h : Settled c line) (event : Event) :
    ∃ c', c.step event = .ok c' ∧ Settled c' (event.shift line) := by
  cases event with
  | come a => exact h.come a
  | attempt a => exact h.attempt a
  | leave a exit => exact h.leave a exit

theorem run (h : Settled c line) (events : List Event) :
    ∃ c', c.run events = .ok c' ∧ Settled c' (events.foldl Event.shift line) := by
  induction events generalizing c line with
  | nil => exact ⟨c, rfl, h⟩
  | cons event events ih =>
    obtain ⟨c', hstep, hsettled⟩ := h.step event
    rw [Calls.run, hstep]
    exact ih hsettled

end Settled

theorem settled_new : Settled Calls.new [] where
  queue := ⟨List.nodup_nil, rfl, fun _ => rfl⟩
  calls := rfl

/-- Whatever calls come and end, wherever their nodes are and however their closures are left, the
nodes of the calls that have not ended are linked in the order in which the calls came: the lock
knows the last one, the first one owns the lock and its call is the one in its closure, and nothing
points to a node that is gone. So the call in its closure can end without waiting for a link and
hands the lock to the second one alone. Whatever its closure does, the call passes that on, the value
is as the closure left it, and the lock is left in one and the same state, be there a result or a
panic. An attempt that fails leaves no trace. -/
theorem calls_form_line (events : List Event) :
    ∃ c, Calls.new.run events = .ok c ∧
      ∃ line, line = events.foldl Event.shift [] ∧ c.calls.map Call.node = line ∧
        c.lock.Linked line ∧
        (c.lock.tail = none ↔ line = []) ∧
        (∀ a, c.lock.tail = some a → (c.lock.heap.get? a).isSome) ∧
        (∀ a node b, c.lock.heap.get? a = some node → node.next = some b →
          (c.lock.heap.get? b).isSome) ∧
        (∀ a, c.lock.owns a = true ↔ line.head? = some a) ∧
        (∀ a, ⟨a, true⟩ ∈ c.calls ↔ line.head? = some a) ∧
        (∀ a heirs, line = a :: heirs → c.lock.successor? a = heirs.head? ∧
          ∃ l', HandedOver c.lock a heirs.head? l' ∧
            ∀ (υ ρ : Type) (closure : υ → Exit ρ × υ) (value : υ),
              c.lock.leave a closure value = .ok ((closure value).1, (closure value).2, l')) ∧
        (∀ a, c.lock.heap.get? a = none → c.lock.tryAcquire a =
          if line = [] then (true, c.lock.acquire a) else (false, c.lock)) ∧
        ∀ a, c.step (.leave a .unwound) = c.step (.leave a (.returned ())) := by
  obtain ⟨c, hrun, hsettled⟩ := settled_new.run events
  have hends := hsettled.step_leave
  obtain ⟨hqueue, hcalls⟩ := hsettled
  refine ⟨c, hrun, _, rfl, ?_, hqueue.linked, ?_, ?_, ?_, ?_, ?_, ?_, ?_, fun a => hends a _ _⟩
  · rw [hcalls, map_node_callsOf]
  · rw [hqueue.tail, List.getLast?_eq_none_iff]
  · intro a ha
    exact hqueue.linked.tail_live ha
  · intro a node b ha hb
    exact hqueue.linked.next_live ha hb
  · intro a
    rw [hqueue.owns_eq, decide_eq_true_eq]
  · intro a
    rw [hcalls, mem_callsOf]
  · intro a heirs hline
    rw [hline] at hqueue
    obtain ⟨l', hrelease, hqueue'⟩ := hqueue.release
    exact ⟨hqueue.successor?_head, l', hqueue.handedOver hqueue', fun _ _ closure value =>
      leave_of_release hrelease closure value⟩
  · intro a ha
    exact hqueue.tryAcquire ha

/-- The third call has its node where the node of the first one was. -/
example : (Calls.new.run [.come 3, .come 5, .leave 3 .unwound, .come 3, .attempt 9]).map
    (fun c => (c.calls, c.lock.tail)) = .ok ([⟨5, true⟩, ⟨3, false⟩], some 3) := by
  rfl

end Handoff.QueueLock
