import Mathlib.Logic.Function.Basic
import Handoff.Proofs.Lock.Queue
import Handoff.Proofs.Threads.Service
import Handoff.Threads.Queue

/-!
# The line of threads at the queue lock

The threads that have a node in memory form a line, in the order in which they joined. All but the
first one wait, each to be marked as the owner; the first one may be anywhere in its call
(`QueueLock.Lined`). A thread joins behind the last one, and only the first one goes away, which
makes the second one the owner. So the first one is the only owner there can be
(`QueueLock.others_wait`), and that is what users of the lock rely on (`QueueLock.service`).

The first one in the line has never to wait: it is marked as the owner already or does it itself, and
when it looks for its successor, the link is there. If there is no line, whoever joins next is the
first one (`QueueLock.promptService`).
-/

namespace Handoff.QueueLock

/-- The address of the node of a thread at a point, if it has one. -/
def Point.node? : Point → Option Address
  | .marking a | .waiting a | .holding a | .releasing a | .awaiting a | .handing a _ => some a
  | .idle | .joining | .trying => none

/-- Where the first thread of a line can be, given whether it is marked as the owner and the nodes of
the line. -/
inductive AtHead : Bool → List Address → Point → Prop
  | marking {a : Address} {line : List Address} : AtHead false (a :: line) (.marking a)
  | waiting {a : Address} {line : List Address} : AtHead true (a :: line) (.waiting a)
  | holding {a : Address} {line : List Address} : AtHead true (a :: line) (.holding a)
  | releasing {a : Address} {line : List Address} : AtHead true (a :: line) (.releasing a)
  | awaiting {a b : Address} {line : List Address} : AtHead true (a :: b :: line) (.awaiting a)
  | handing {a b : Address} {line : List Address} : AtHead true (a :: b :: line) (.handing a b)

/-- A node is made where none lives. -/
theorem get?_of_place? {l : QueueLock} {choice : Choice} {a : Address}
    (h : choice.place? l = some a) : l.heap.get? a = none := by
  cases choice with
  | proceed b =>
    rw [Choice.place?] at h
    split at h
    · rename_i hnone
      obtain rfl := Option.some.inj h
      exact Option.isNone_iff_eq_none.1 hnone
    · exact nomatch h
  | _ => exact nomatch h

/-! ### Accesses -/

namespace AtHead

variable {owner : Bool} {line : List Address} {a : Address} {p : Point}

theorem node?_eq (h : AtHead owner (a :: line) p) : p.node? = some a := by
  cases h <;> rfl

/-- The first thread of a line stays where it is when another one joins. -/
theorem concat (h : AtHead owner line p) (b : Address) : AtHead owner (line ++ [b]) p := by
  cases h with
  | marking => exact .marking
  | waiting => exact .waiting
  | holding => exact .holding
  | releasing => exact .releasing
  | awaiting => exact .awaiting
  | handing => exact .handing

variable {l : QueueLock}

/-- The first thread of a line goes on in its call, or goes away. -/
theorem access (h : AtHead owner (a :: line) p) (hline : IsLine owner l (a :: line))
    (choice : Choice) :
    (∃ owner', IsLine owner' (access choice l p).1 (a :: line) ∧
        AtHead owner' (a :: line) (access choice l p).2) ∨
      IsLine true (QueueLock.access choice l p).1 line ∧
        (QueueLock.access choice l p).2 = .idle := by
  cases h with
  | marking => exact .inl ⟨true, hline.makeOwner, .holding⟩
  | waiting =>
    have howns : l.owns a = true := by
      rw [hline.owns_cons, decide_eq_true rfl, Bool.true_and]
    rw [QueueLock.access, if_pos howns]
    exact .inl ⟨true, hline, .holding⟩
  | holding =>
    rw [QueueLock.access]
    split
    · exact .inl ⟨true, hline, .releasing⟩
    · exact .inl ⟨true, hline, .holding⟩
  | releasing =>
    cases line with
    | nil =>
      obtain ⟨l', hswap, hline'⟩ := hline.swapTail_last
      rw [QueueLock.access, hswap]
      exact .inr ⟨hline', rfl⟩
    | cons b line =>
      rw [QueueLock.access, hline.swapTail_next]
      exact .inl ⟨true, hline, .awaiting⟩
  | awaiting =>
    rw [QueueLock.access, hline.successor?_head]
    exact .inl ⟨true, hline, .handing⟩
  | handing => exact .inr ⟨hline.handOver, rfl⟩

end AtHead

namespace IsLine

variable {owner : Bool} {l : QueueLock} {line : List Address} {a : Address} {p : Point}

/-- A thread without a node goes elsewhere, or is the first one to join, or joins behind others. -/
theorem access_apart (h : IsLine owner l line) (hp : p.node? = none) (choice : Choice) :
    ((access choice l p).1 = l ∧ (access choice l p).2.node? = none) ∨
      (line = [] ∧ ∃ a, IsLine false (access choice l p).1 [a] ∧
        (access choice l p).2 = .marking a) ∨
      (line ≠ [] ∧ ∃ a, IsLine owner (access choice l p).1 (line ++ [a]) ∧
        (access choice l p).2 = .waiting a) := by
  cases p with
  | idle => cases choice <;> exact .inl ⟨rfl, rfl⟩
  | joining =>
    cases hplace : choice.place? l with
    | none =>
      simp only [access, hplace]
      exact .inl ⟨trivial, rfl⟩
    | some a =>
      cases line with
      | nil =>
        obtain ⟨l', hjoin, hline⟩ := h.join_nil a
        simp only [access, hplace, hjoin]
        exact .inr (.inl ⟨trivial, a, hline, rfl⟩)
      | cons b line =>
        obtain ⟨q, l', hjoin, hline⟩ := h.join_cons (get?_of_place? hplace)
        simp only [access, hplace, hjoin]
        exact .inr (.inr ⟨List.cons_ne_nil b line, a, hline, rfl⟩)
  | trying =>
    cases hplace : choice.place? l with
    | none =>
      simp only [access, hplace]
      exact .inl ⟨trivial, rfl⟩
    | some a =>
      cases line with
      | nil =>
        obtain ⟨l', hswap, hjoin⟩ := h.trySwap_nil a
        obtain ⟨l'', hjoin', hline⟩ := h.join_nil a
        obtain rfl : l' = l'' := congrArg Prod.snd (hjoin.symm.trans hjoin')
        simp only [access, hplace, hswap]
        exact .inr (.inl ⟨trivial, a, hline, rfl⟩)
      | cons b line =>
        simp only [access, hplace, h.trySwap_cons, Heap.free_alloc (get?_of_place? hplace)]
        exact .inl ⟨trivial, rfl⟩
  | _ => exact nomatch hp

/-- A thread behind the first one waits on. -/
theorem access_behind (h : IsLine owner l line) (ha : a ∈ line.tail) (choice : Choice) :
    access choice l (.waiting a) = (l, .waiting a) := by
  cases line with
  | nil => exact nomatch ha
  | cons b line =>
    have hne : a ≠ b := fun e => (List.nodup_cons.1 h.nodup).1 (e ▸ ha)
    have howns : l.owns a = false := by
      rw [h.owns_cons, decide_eq_false hne, Bool.false_and]
    rw [access, howns, if_neg Bool.false_ne_true]

end IsLine

/-! ### The line of threads -/

section Line

variable {ι : Type}

/-- The threads with a node, and their nodes, are a line: memory holds these nodes in its order, the
first thread is where the first one can be, and the others wait. -/
structure Lined (l : QueueLock) (point : ι → Point) (owner : Bool) (line : List (ι × Address)) :
    Prop where
  isLine : IsLine owner l (line.map Prod.snd)
  mem_iff : ∀ t a, (t, a) ∈ line ↔ (point t).node? = some a
  head : ∀ t a, line.head? = some (t, a) → AtHead owner (line.map Prod.snd) (point t)
  behind : ∀ t a, (t, a) ∈ line.tail → point t = .waiting a

theorem lined_start : Lined new (fun _ : ι => .idle) true [] where
  isLine := ⟨List.nodup_nil, rfl, fun _ => rfl⟩
  mem_iff _ _ := iff_of_false List.not_mem_nil nofun
  head _ _ := nofun
  behind _ _ := nofun

namespace Lined

variable {l l' : QueueLock} {point : ι → Point} {owner owner' : Bool} {line : List (ι × Address)}
  {t u : ι} {a b : Address} {p : Point}

/-- No thread is twice in a line. -/
theorem ne_of_mem (h : Lined l point owner ((t, a) :: line)) (hu : (u, b) ∈ line) : u ≠ t := by
  rintro rfl
  obtain ⟨ha, -⟩ := List.nodup_cons.1 h.isLine.nodup
  have hself := (h.mem_iff u a).1 List.mem_cons_self
  have hagain := (h.mem_iff u b).1 (List.mem_cons_of_mem _ hu)
  obtain rfl : a = b := Option.some.inj (hself.symm.trans hagain)
  exact ha (List.mem_map_of_mem hu)

/-- A thread without a node is not in the line. -/
theorem ne_of_node?_eq_none (h : Lined l point owner line) (hu : (u, b) ∈ line)
    (ht : (point t).node? = none) : u ≠ t := by
  rintro rfl
  exact nomatch ht.symm.trans ((h.mem_iff u b).1 hu)

/-- A thread with a node is the first one of the line, or waits behind. -/
theorem head_or_behind (h : Lined l point owner line) (ha : (point t).node? = some a) :
    (∃ rest, line = (t, a) :: rest ∧ AtHead owner (a :: rest.map Prod.snd) (point t)) ∨
      (t, a) ∈ line.tail ∧ point t = .waiting a := by
  have hmem := (h.mem_iff t a).2 ha
  cases line with
  | nil => exact nomatch hmem
  | cons first rest =>
    rcases List.mem_cons.1 hmem with rfl | hrest
    · exact .inl ⟨rest, rfl, h.head t a rfl⟩
    · exact .inr ⟨hrest, h.behind t a hrest⟩

/-- A thread that does not wait is the first one of the line. -/
theorem exists_eq_cons (h : Lined l point owner line) (ha : (point t).node? = some a)
    (hp : point t ≠ .waiting a) :
    ∃ rest, line = (t, a) :: rest ∧ AtHead owner (a :: rest.map Prod.snd) (point t) :=
  (h.head_or_behind ha).resolve_right fun hbehind => hp hbehind.2

/-- There is at most one owner. -/
theorem eq_of_holding (h : Lined l point owner line) (ht : point t = .holding a)
    (hu : point u = .holding b) : t = u := by
  obtain ⟨rest, hline, -⟩ := h.exists_eq_cons (congrArg Point.node? ht) (by rw [ht]; exact nofun)
  obtain ⟨rest', hline', -⟩ := h.exists_eq_cons (congrArg Point.node? hu) (by rw [hu]; exact nofun)
  exact congrArg Prod.fst (List.cons.inj (hline.symm.trans hline')).1

variable [DecidableEq ι]

/-- A thread goes from one point without a node to another. -/
theorem elsewhere (h : Lined l point owner line) (ht : (point t).node? = none)
    (hp : p.node? = none) : Lined l (Function.update point t p) owner line := by
  have hne : ∀ {u a}, (u, a) ∈ line → u ≠ t := fun hu => h.ne_of_node?_eq_none hu ht
  refine ⟨h.isLine, fun u a => ?_, fun u a hu => ?_, fun u a hu => ?_⟩
  · rcases eq_or_ne u t with rfl | hut
    · rw [Function.update_self, hp, h.mem_iff, ht]
    · rw [Function.update_of_ne hut]
      exact h.mem_iff u a
  · rw [Function.update_of_ne (hne (List.mem_of_mem_head? hu))]
    exact h.head u a hu
  · rw [Function.update_of_ne (hne (List.mem_of_mem_tail hu))]
    exact h.behind u a hu

/-- The first thread of a line goes on in its call. -/
theorem goOn (h : Lined l point owner ((t, a) :: line))
    (hline : IsLine owner' l' (a :: line.map Prod.snd))
    (hp : AtHead owner' (a :: line.map Prod.snd) p) :
    Lined l' (Function.update point t p) owner' ((t, a) :: line) := by
  refine ⟨hline, fun u b => ?_, fun u b hu => ?_, fun u b hu => ?_⟩
  · rcases eq_or_ne u t with rfl | hut
    · rw [Function.update_self, hp.node?_eq, h.mem_iff,
        (h.mem_iff u a).1 List.mem_cons_self]
    · rw [Function.update_of_ne hut]
      exact h.mem_iff u b
  · cases hu
    rw [Function.update_self]
    exact hp
  · rw [Function.update_of_ne (h.ne_of_mem hu)]
    exact h.behind u b hu

/-- A thread joins where nobody is. -/
theorem joinFirst (h : Lined l point owner []) (hline : IsLine false l' [a]) :
    Lined l' (Function.update point t (.marking a)) false [(t, a)] := by
  have hnone : ∀ u b, (point u).node? ≠ some b := fun u b hu => nomatch (h.mem_iff u b).2 hu
  refine ⟨hline, fun u b => ?_, fun u b hu => ?_, nofun⟩
  · rw [List.mem_singleton, Prod.mk.injEq]
    rcases eq_or_ne u t with rfl | hut
    · rw [Function.update_self]
      exact ⟨fun hb => congrArg some hb.2.symm, fun hb => ⟨rfl, (Option.some.inj hb).symm⟩⟩
    · rw [Function.update_of_ne hut]
      exact iff_of_false (fun hb => hut hb.1) (hnone u b)
  · cases hu
    rw [Function.update_self]
    exact .marking

/-- A thread joins behind others. -/
theorem joinLast {first : ι × Address} (h : Lined l point owner (first :: line))
    (ht : (point t).node? = none)
    (hline : IsLine owner l' ((first :: line).map Prod.snd ++ [a])) :
    Lined l' (Function.update point t (.waiting a)) owner (first :: line ++ [(t, a)]) := by
  have hne : ∀ {u b}, (u, b) ∈ first :: line → u ≠ t := fun hu => h.ne_of_node?_eq_none hu ht
  refine ⟨by rwa [List.map_append], fun u b => ?_, fun u b hu => ?_, fun u b hu => ?_⟩
  · rw [List.mem_append, List.mem_singleton, Prod.mk.injEq]
    rcases eq_or_ne u t with rfl | hut
    · rw [Function.update_self]
      constructor
      · rintro (hmem | ⟨-, rfl⟩)
        · exact absurd rfl (hne hmem)
        · rfl
      · intro hb
        exact .inr ⟨rfl, (Option.some.inj hb).symm⟩
    · rw [Function.update_of_ne hut, ← h.mem_iff]
      exact or_iff_left fun hb => hut hb.1
  · obtain rfl : first = (u, b) := Option.some.inj hu
    rw [Function.update_of_ne (hne List.mem_cons_self), List.map_append]
    exact (h.head u b rfl).concat a
  · rcases List.mem_append.1 hu with hmem | hlast
    · rw [Function.update_of_ne (hne (List.mem_cons_of_mem _ hmem))]
      exact h.behind u b hmem
    · obtain ⟨rfl, rfl⟩ := Prod.mk.inj (List.mem_singleton.1 hlast)
      exact Function.update_self ..

/-- The first thread of a line goes away, and the next one is marked as the owner. -/
theorem goAway (h : Lined l point owner ((t, a) :: line))
    (hline : IsLine true l' (line.map Prod.snd)) :
    Lined l' (Function.update point t .idle) true line := by
  refine ⟨hline, fun u b => ?_, fun u b hu => ?_, fun u b hu => ?_⟩
  · rcases eq_or_ne u t with rfl | hut
    · rw [Function.update_self]
      exact iff_of_false (fun hmem => h.ne_of_mem hmem rfl) nofun
    · rw [Function.update_of_ne hut, ← h.mem_iff, List.mem_cons]
      exact (or_iff_right fun hb => hut (Prod.mk.inj hb).1).symm
  · have hmem := List.mem_of_mem_head? hu
    rw [Function.update_of_ne (h.ne_of_mem hmem), h.behind u b hmem]
    obtain ⟨rest, rfl⟩ := List.head?_eq_some_iff.1 hu
    exact .waiting
  · have hmem := List.mem_of_mem_tail hu
    rw [Function.update_of_ne (h.ne_of_mem hmem)]
    exact h.behind u b hmem

/-- Every access of every thread keeps the line. -/
theorem access (h : Lined l point owner line) (t : ι) (choice : Choice) :
    ∃ owner line, Lined (access choice l (point t)).1
      (Function.update point t (QueueLock.access choice l (point t)).2) owner line := by
  cases hnode : (point t).node? with
  | none =>
    rcases h.isLine.access_apart hnode choice with ⟨hl, hp⟩ | ⟨hempty, a, hline, hp⟩ |
      ⟨hsome, a, hline, hp⟩
    · rw [hl]
      exact ⟨owner, line, h.elsewhere hnode hp⟩
    · obtain rfl := List.map_eq_nil_iff.1 hempty
      rw [hp]
      exact ⟨false, [(t, a)], h.joinFirst hline⟩
    · obtain ⟨first, rest, rfl⟩ := List.exists_cons_of_ne_nil (mt List.map_eq_nil_iff.2 hsome)
      rw [hp]
      exact ⟨owner, _, h.joinLast hnode hline⟩
  | some a =>
    rcases h.head_or_behind hnode with ⟨rest, rfl, hhead⟩ | ⟨hmem, hp⟩
    · rcases hhead.access h.isLine choice with ⟨owner', hline, hp⟩ | ⟨hline, hp⟩
      · exact ⟨owner', _, h.goOn hline hp⟩
      · rw [hp]
        exact ⟨true, rest, h.goAway hline⟩
    · have hstay : QueueLock.access choice l (point t) = (l, point t) := by
        rw [hp, h.isLine.access_behind (List.map_tail ▸ List.mem_map_of_mem hmem)]
      rw [hstay, Function.update_eq_self]
      exact ⟨owner, line, h⟩

end Lined

/-- Whether the threads with a node are a line. -/
def InLine (s : (code ι).State) : Prop :=
  ∃ owner line, Lined s.memory s.point owner line

theorem inLine_start : InLine (Program.start (code ι).toProgram) := ⟨true, [], lined_start⟩

theorem InLine.move [DecidableEq ι] {s : (code ι).State} (h : InLine s) (m : (code ι).Move) :
    InLine (Program.move s m) := by
  obtain ⟨owner, line, h⟩ := h
  rw [InLine, Program.move_point_eq_update]
  exact h.access m.1 m.2

/-- Whatever the schedule, the threads with a node are a line. -/
theorem inLine_run [DecidableEq ι] (schedule : List (code ι).Move) :
    InLine (Program.run (Program.start (code ι).toProgram) schedule) :=
  Program.run_of_step (fun _ m h => h.move m) inLine_start schedule

/-- **Waiting in line.** Whatever the schedule, the lock is free exactly if no thread has a node. While
one thread is past its wait, be it that it holds the lock or gives it back, all others with a node
wait and are not marked as the owner, so there is never a second owner. And a thread that gives the
lock back to a successor finds the link to it at the first look. -/
theorem others_wait [DecidableEq ι] (schedule : List (code ι).Move) :
    let s := Program.run (Program.start (code ι).toProgram) schedule
    (s.memory.isLocked = false ↔ ∀ t, (s.point t).node? = none) ∧
    (∀ t a, (s.point t).node? = some a → s.point t ≠ .waiting a →
      ∀ u b, u ≠ t → (s.point u).node? = some b →
        s.point u = .waiting b ∧ s.memory.owns b = false) ∧
    ∀ t a, s.point t = .awaiting a → (s.memory.successor? a).isSome = true := by
  intro s
  obtain ⟨owner, line, h⟩ : InLine s := inLine_run schedule
  refine ⟨?_, fun t a ht hpast u b hut hu => ?_, fun t a ht => ?_⟩
  · change s.memory.tail.isSome = false ↔ _
    rw [Option.isSome_eq_false_iff, Option.isNone_iff_eq_none, h.isLine.tail_eq_none_iff,
      List.map_eq_nil_iff]
    constructor
    · rintro rfl t
      exact Option.eq_none_iff_forall_ne_some.2 fun a ha => nomatch (h.mem_iff t a).2 ha
    · intro hnone
      refine List.eq_nil_iff_forall_not_mem.2 fun entry hmem => ?_
      exact nomatch (hnone entry.1).symm.trans ((h.mem_iff _ _).1 hmem)
  · obtain ⟨rest, rfl, -⟩ := h.exists_eq_cons ht hpast
    rcases h.head_or_behind hu with ⟨rest', hline, -⟩ | ⟨hmem, hwaits⟩
    · exact absurd (congrArg Prod.fst (List.cons.inj hline).1).symm hut
    · obtain ⟨ha, -⟩ := List.nodup_cons.1 h.isLine.nodup
      have hb : b ∈ rest.map Prod.snd := List.mem_map_of_mem (f := Prod.snd) hmem
      have hba : b ≠ a := fun e => ha (e ▸ hb)
      exact ⟨hwaits, by rw [h.isLine.owns_cons, decide_eq_false hba, Bool.false_and]⟩
  · obtain ⟨rest, rfl, hhead⟩ :=
      h.exists_eq_cons (congrArg Point.node? ht) (by rw [ht]; exact nofun)
    rw [h.isLine.successor?_head]
    rw [ht] at hhead
    generalize rest.map Prod.snd = nodes at hhead ⊢
    cases hhead with
    | awaiting => rfl

end Line

end Handoff.QueueLock
