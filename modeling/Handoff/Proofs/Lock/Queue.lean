import Mathlib.Data.List.Nodup
import Mathlib.Data.List.Perm.Subperm
import Handoff.Lock.Queue
import Handoff.Proofs.Lock.Custody

/-!
# The custody of the queue lock

The nodes of a line are linked in its order, only the first one owns the lock, the tail is the last
one, and no other node lives (`QueueLock.IsQueue`). What memory looks like then is a function of the
line, `placed`, by recursion along it; so what a call does to memory is compared with what it does
to the line one address at a time. That is done for each step of a call (`QueueLock.IsLine`): before
the last of them, the first one in a line may still have to be marked as the owner. A whole call is
made of its steps.

Where a new node lands does not matter, as long as no node lives there.
-/

namespace Handoff

/-! ### Addresses where no node lives -/

theorem Heap.mem_addresses {h : Heap} {a : Address} (ha : (h.get? a).isSome) :
    a ∈ h.nodes.map Prod.fst := by
  obtain ⟨entry, hmem, heq⟩ := List.lookup_isSome_iff.1 ha
  rw [eq_of_beq heq]
  exact List.mem_map_of_mem hmem

/-- At the least address at which no node lives there is indeed none: if nodes live at all the
addresses tried, there is no node left for the next one. -/
theorem Heap.get?_fresh (h : Heap) : h.get? h.fresh = none := by
  rw [fresh]
  cases hfind : (List.range h.nodes.length).find? fun a => (h.get? a).isNone with
  | some a =>
    have hnone : (h.get? a).isNone = true :=
      List.find?_some (p := fun a => (h.get? a).isNone) hfind
    exact Option.isNone_iff_eq_none.1 hnone
  | none =>
    rw [Option.getD_none, ← Option.not_isSome_iff_eq_none]
    intro hlast
    have hall : List.range (h.nodes.length + 1) ⊆ h.nodes.map Prod.fst := fun a ha => by
      refine mem_addresses ?_
      rcases Nat.lt_or_eq_of_le (Nat.le_of_lt_succ (List.mem_range.1 ha)) with hlt | rfl
      · have hlive := List.find?_eq_none.1 hfind a (List.mem_range.2 hlt)
        exact Option.isSome_iff_ne_none.2 fun e => hlive (Option.isNone_iff_eq_none.2 e)
      · exact hlast
    have hle := (List.subperm_of_subset List.nodup_range hall).length_le
    rw [List.length_range, List.length_map] at hle
    omega

namespace QueueLock

/-! ### The line behind memory -/

/-- The node at an address when the nodes of a line are linked in its order and, if at all, the
first one owns the lock. -/
def placed (owner : Bool) : List Address → Address → Option Node
  | [], _ => none
  | b :: line, a => if a = b then some ⟨line.head?, owner⟩ else placed false line a

theorem placed_eq_none_iff {owner : Bool} {line : List Address} {a : Address} :
    placed owner line a = none ↔ a ∉ line := by
  induction line generalizing owner with
  | nil => exact ⟨fun _ => List.not_mem_nil, fun _ => rfl⟩
  | cons b line ih =>
    rw [placed, List.mem_cons, not_or]
    split
    · next h => exact ⟨nofun, fun h' => absurd h h'.1⟩
    · next h => exact ih.trans ⟨fun h' => ⟨h, h'⟩, fun h' => h'.2⟩

theorem placed_self (owner : Bool) (line : List Address) (a : Address) :
    placed owner (a :: line) a = some ⟨line.head?, owner⟩ := by
  rw [placed, if_pos rfl]

theorem placed_of_ne {owner : Bool} {line : List Address} {a b : Address} (h : a ≠ b) :
    placed owner (b :: line) a = placed false line a := by
  rw [placed, if_neg h]

/-- Nobody behind the first of a line owns the lock. -/
theorem isOwner_placed_false (line : List Address) (a : Address) :
    ((placed false line a).map Node.isOwner).getD false = false := by
  induction line with
  | nil => rfl
  | cons b line ih =>
    rw [placed]
    split
    · rfl
    · exact ih

/-- A node linked behind the last one of a line changes that one only. -/
theorem placed_concat {owner : Bool} {line : List Address} {a b last : Address}
    (hlast : line.getLast? = some last) (hnodup : (line ++ [a]).Nodup) :
    placed owner (line ++ [a]) b =
      if b = last then (placed owner line b).map fun node => { node with next := some a }
      else if b = a then some .new else placed owner line b := by
  induction line generalizing owner with
  | nil => nomatch hlast
  | cons c line ih =>
    obtain ⟨hc, hrest⟩ := List.nodup_cons.1 hnodup
    cases line with
    | nil =>
      obtain rfl : c = last := Option.some.inj hlast
      by_cases hbc : b = c
      · subst hbc
        rw [if_pos rfl, placed_self, List.singleton_append, placed_self]
        rfl
      · rw [if_neg hbc, placed_of_ne hbc, List.singleton_append, placed_of_ne hbc]
        rfl
    | cons d line =>
      rw [List.getLast?_cons_cons] at hlast
      by_cases hbc : b = c
      · -- the first node is neither the last one nor the new one
        subst hbc
        have hne : b ≠ last := fun e =>
          hc (List.mem_append_left _ (e ▸ List.mem_of_getLast? hlast))
        have hne' : b ≠ a := fun e =>
          hc (List.mem_append_right _ (e ▸ List.mem_singleton_self b))
        rw [if_neg hne, if_neg hne', List.cons_append, placed_self, placed_self]
        rfl
      · rw [List.cons_append, placed_of_ne hbc, placed_of_ne hbc, ih hlast hrest]

/-- The nodes that live are those of the line, linked in its order, and the tail is the last one.
Nobody owns the lock but the first one, which may still have to be marked as the owner. -/
structure IsLine (owner : Bool) (l : QueueLock) (line : List Address) : Prop where
  nodup : line.Nodup
  tail : l.tail = line.getLast?
  heap : ∀ a, l.heap.get? a = placed owner line a

/-- The nodes that live are those of the line, linked in its order; the first one owns the lock, and
the tail is the last one. -/
structure IsQueue (l : QueueLock) (line : List Address) : Prop where
  nodup : line.Nodup
  tail : l.tail = line.getLast?
  heap : ∀ a, l.heap.get? a = placed true line a

/-! ### Single steps -/

namespace IsLine

variable {owner : Bool} {l : QueueLock} {line : List Address} {a b : Address}

theorem not_mem (h : IsLine owner l line) (ha : l.heap.get? a = none) : a ∉ line :=
  placed_eq_none_iff.1 ((h.heap a).symm.trans ha)

theorem tail_eq_none_iff (h : IsLine owner l line) : l.tail = none ↔ line = [] := by
  rw [h.tail]
  exact List.getLast?_eq_none_iff

/-- Only the first one of a line can own the lock. -/
theorem owns_cons (h : IsLine owner l (b :: line)) : l.owns a = (decide (a = b) && owner) := by
  rw [owns, h.heap]
  by_cases hab : a = b
  · rw [hab, placed_self, decide_eq_true rfl, Bool.true_and]
    rfl
  · rw [placed_of_ne hab, isOwner_placed_false, decide_eq_false hab, Bool.false_and]

/-- The first in an empty queue is not the owner yet. -/
theorem join_nil (h : IsLine owner l []) (a : Address) :
    ∃ l', l.join a = (none, l') ∧ IsLine false l' [a] := by
  have htail : l.tail = none := h.tail
  refine ⟨⟨some a, l.heap.alloc a .new⟩, ?_, List.nodup_singleton a, rfl, fun b => ?_⟩
  · simp only [join, htail]
  · rw [Heap.get?_alloc, h.heap]
    rfl

/-- Whoever joins a queue that is not empty is its last one. -/
theorem join_cons (h : IsLine owner l (b :: line)) (ha : l.heap.get? a = none) :
    ∃ p l', l.join a = (some p, l') ∧ IsLine owner l' (b :: line ++ [a]) := by
  have hnodup : (b :: line ++ [a]).Nodup := by
    rw [← List.concat_eq_append]
    exact (List.nodup_concat _ _).2 ⟨h.not_mem ha, h.nodup⟩
  obtain ⟨last, hlast⟩ : ∃ last, (b :: line).getLast? = some last :=
    Option.isSome_iff_exists.1 (List.getLast?_isSome.2 nofun)
  have htail : l.tail = some last := h.tail.trans hlast
  refine ⟨last, _, by simp only [join, htail]; rfl, hnodup, ?_, fun c => ?_⟩
  · rw [List.getLast?_concat]
  · have hne : last ≠ a := fun e => h.not_mem ha (e ▸ List.mem_of_getLast? hlast)
    rw [placed_concat hlast hnodup]
    simp only [Heap.get?_modify, Heap.get?_alloc, h.heap c]
    split
    · next hc => rw [if_neg (hc ▸ hne)]
    · rfl

/-- An attempt on an empty queue swaps the tail as a call that joins it does. -/
theorem trySwap_nil (h : IsLine owner l []) (a : Address) :
    ∃ l', swapTail { l with heap := l.heap.alloc a .new } none (some a) = (true, l') ∧
      l.join a = (none, l') := by
  have htail : l.tail = none := h.tail
  refine ⟨⟨some a, l.heap.alloc a .new⟩, ?_, ?_⟩
  · simp only [swapTail, htail, if_true]
  · simp only [join, htail]

/-- An attempt on a queue that is not empty leaves the tail alone. -/
theorem trySwap_cons (h : IsLine owner l (b :: line)) (a : Address) :
    swapTail { l with heap := l.heap.alloc a .new } none (some a) =
      (false, { l with heap := l.heap.alloc a .new }) := by
  have htail : l.tail ≠ none := mt h.tail_eq_none_iff.1 (List.cons_ne_nil b line)
  rw [swapTail, if_neg htail]

theorem makeOwner (h : IsLine owner l (a :: line)) : IsLine true (l.makeOwner a) (a :: line) := by
  refine ⟨h.nodup, h.tail, fun b => ?_⟩
  simp only [QueueLock.makeOwner, Heap.get?_modify, h.heap b]
  split
  · next hba => rw [hba, placed_self, placed_self]; rfl
  · next hba => rw [placed_of_ne hba, placed_of_ne hba]

/-- The only one takes the tail back, and leaves the queue empty. -/
theorem swapTail_last (h : IsLine owner l [a]) :
    ∃ l', l.swapTail (some a) none = (true, l') ∧
      IsLine true { l' with heap := l'.heap.free a } [] := by
  have htail : l.tail = some a := h.tail
  refine ⟨⟨none, l.heap⟩, ?_, List.nodup_nil, rfl, fun b => ?_⟩
  · simp only [swapTail, htail, if_true]
  · rw [Heap.get?_free, h.heap b]
    split
    · rfl
    · next hba => exact placed_of_ne hba

/-- The first of several cannot take the tail back. -/
theorem swapTail_next (h : IsLine owner l (a :: b :: line)) :
    l.swapTail (some a) none = (false, l) := by
  obtain ⟨ha, -⟩ := List.nodup_cons.1 h.nodup
  have htail : l.tail = (b :: line).getLast? := by
    rw [h.tail, List.getLast?_cons_cons]
  have hne : l.tail ≠ some a := fun e => ha (List.mem_of_getLast? (htail.symm.trans e))
  rw [swapTail, if_neg hne]

/-- The link to the next node is there when the first of a line looks for it. -/
theorem successor?_head (h : IsLine owner l (a :: line)) : l.successor? a = line.head? := by
  rw [successor?, h.heap, placed_self]
  rfl

/-- The second one becomes the owner when the first one is gone. -/
theorem handOver (h : IsLine owner l (a :: b :: line)) :
    IsLine true { l.makeOwner b with heap := (l.makeOwner b).heap.free a } (b :: line) := by
  obtain ⟨ha, hnodup⟩ := List.nodup_cons.1 h.nodup
  refine ⟨hnodup, by rw [← List.getLast?_cons_cons, ← h.tail]; rfl, fun c => ?_⟩
  simp only [Heap.get?_free, QueueLock.makeOwner, Heap.get?_modify, h.heap c]
  by_cases hca : c = a
  · subst hca
    rw [if_pos rfl, placed_eq_none_iff.2 ha]
  · rw [if_neg hca, placed_of_ne hca]
    by_cases hcb : c = b
    · rw [if_pos hcb, hcb, placed_self, placed_self]
      rfl
    · rw [if_neg hcb, placed_of_ne hcb, placed_of_ne hcb]

theorem isQueue (h : IsLine true l line) : l.IsQueue line := ⟨h.nodup, h.tail, h.heap⟩

end IsLine

/-! ### Whole calls -/

namespace IsQueue

variable {l : QueueLock} {line : List Address} {a b : Address}

theorem isLine (h : l.IsQueue line) : IsLine true l line := ⟨h.nodup, h.tail, h.heap⟩

theorem isLocked_eq (h : l.IsQueue line) : l.isLocked = !line.isEmpty := by
  rw [isLocked, h.tail]
  cases line with
  | nil => rfl
  | cons a line => exact List.getLast?_isSome.2 nofun

/-- Only the first one of a line owns the lock. -/
theorem owns_cons (h : l.IsQueue (b :: line)) : l.owns a = decide (a = b) := by
  rw [h.isLine.owns_cons, Bool.and_true]

theorem owns_head (h : l.IsQueue (a :: line)) : l.owns a = true :=
  h.owns_cons.trans (decide_eq_true rfl)

/-- The first in an empty queue becomes the owner. -/
theorem acquire_nil (h : l.IsQueue []) (a : Address) : (l.acquire a).IsQueue [a] := by
  obtain ⟨l', hjoin, hline⟩ := h.isLine.join_nil a
  rw [acquire, hjoin]
  exact hline.makeOwner.isQueue

/-- Whoever joins a queue that is not empty is its last one. -/
theorem acquire_cons (h : l.IsQueue (b :: line)) (ha : l.heap.get? a = none) :
    (l.acquire a).IsQueue (b :: line ++ [a]) := by
  obtain ⟨p, l', hjoin, hline⟩ := h.isLine.join_cons ha
  rw [acquire, hjoin]
  exact hline.isQueue

theorem acquire (h : l.IsQueue line) (ha : l.heap.get? a = none) :
    (l.acquire a).IsQueue (line ++ [a]) := by
  cases line with
  | nil => exact h.acquire_nil a
  | cons b line => exact h.acquire_cons ha

/-- An attempt on an empty queue is as good as joining it. -/
theorem tryAcquire_nil (h : l.IsQueue []) (a : Address) :
    l.tryAcquire a = (true, l.acquire a) := by
  obtain ⟨l', hswap, hjoin⟩ := h.isLine.trySwap_nil a
  simp only [tryAcquire, hswap, QueueLock.acquire, hjoin]

/-- An attempt on a queue that is not empty leaves no trace. -/
theorem tryAcquire_cons (h : l.IsQueue (b :: line)) (ha : l.heap.get? a = none) :
    l.tryAcquire a = (false, l) := by
  simp only [tryAcquire, h.isLine.trySwap_cons, Heap.free_alloc ha]

/-- Whoever has joined owns the lock if nobody is in front. -/
theorem owns_acquire (h : l.IsQueue line) (ha : l.heap.get? a = none) :
    (l.acquire a).owns a = line.isEmpty := by
  have hnew := h.acquire ha
  cases line with
  | nil => exact hnew.owns_cons.trans (decide_eq_true rfl)
  | cons b line =>
    refine hnew.owns_cons.trans (decide_eq_false fun e => ?_)
    exact h.isLine.not_mem ha (e ▸ List.mem_cons_self)

/-- The last one leaves the queue empty. -/
theorem release_last (h : l.IsQueue [a]) :
    ∃ l', l.release a = .ok l' ∧ l'.IsQueue [] := by
  obtain ⟨l', hswap, hline⟩ := h.isLine.swapTail_last
  refine ⟨{ l' with heap := l'.heap.free a }, ?_, hline.isQueue⟩
  simp only [release, hswap]

/-- Otherwise the second one becomes the owner. -/
theorem release_next (h : l.IsQueue (a :: b :: line)) :
    ∃ l', l.release a = .ok l' ∧ l'.IsQueue (b :: line) := by
  have hnext : l.successor? a = some b := h.isLine.successor?_head
  refine ⟨_, ?_, h.isLine.handOver.isQueue⟩
  simp only [release, h.isLine.swapTail_next, hnext]

end IsQueue

/-- The line behind the nodes. The number of passes does not matter, since addresses do not run
out. -/
def custody : Custody raw where
  Room _ := True
  Holds _ := IsQueue
  new := ⟨List.nodup_nil, rfl, fun _ => rfl⟩
  locked h := h.isLocked_eq
  lock {n l line} h _ :=
    ⟨h.owns_acquire l.heap.get?_fresh, h.acquire l.heap.get?_fresh⟩
  tryLock_nil {n l} h _ :=
    ⟨l.heap.fresh, l.acquire l.heap.fresh, by simp only [raw, h.tryAcquire_nil]; rfl,
      h.acquire_nil _⟩
  tryLock_cons {n l a line} h := by
    simp only [raw, h.tryAcquire_cons l.heap.get?_fresh]
    rfl
  unlock_last {n l a} h := by
    obtain ⟨l', hrelease, hqueue⟩ := h.release_last
    exact ⟨⟨l', true⟩, by simp only [raw, hrelease]; rfl, hqueue⟩
  unlock_next {n l a b line} h := by
    obtain ⟨l', hrelease, hqueue⟩ := h.release_next
    exact ⟨⟨l', true⟩, l', by simp only [raw, hrelease]; rfl, rfl,
      congrArg (·, l') hqueue.owns_head, hqueue⟩
  unlockUnheld _ hcall := nomatch hcall

end QueueLock

end Handoff
