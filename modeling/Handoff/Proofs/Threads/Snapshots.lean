import Mathlib.Data.Set.Card
import Mathlib.Order.Interval.Finset.Nat
import Handoff.Proofs.Threads.Tickets

/-!
# Two looks at a ticket lock

A thread that tries the ticket lock or counts its queue looks at the number being served first, and
at the next free number later. Between the two looks the other threads may draw and give back any
number of tickets, so the two numbers need never have been those of the lock at the same time. What
the thread concludes is true at some instant of its call all the same, for three reasons:

* **Both counters only grow**, so the number seen first is still not beyond the one being served at
  the second look, let alone beyond the next free one. If the second look finds the very number
  seen first, nobody uses the lock at that instant (`InOrder.users_eq_empty`).
* **An access moves at most one of the counters** (`access_owner_or_next`). So if the second look
  finds another number, there was an instant between the looks at which the ticket of the number
  seen first was drawn and not given back (`InOrder.exists_outstanding`).
* **The tickets drawn and not given back are those of the users** (`InOrder.encard_users`), so a
  count is the number of users at the first look and the draws since.

The main statement is `looks_true_at_some_instant`.
-/

namespace Handoff.TicketLock

variable {ι : Type}

/-! ### Users -/

/-- The threads that wait for the lock or own it. -/
def users (point : ι → Point) : Set ι := {t | (point t).ticket?.isSome}

namespace InOrder

variable {l : TicketLock} {point : ι → Point} {j : Ledger ι}

/-- There are as many users as tickets from the number being served up to the next free one. -/
theorem encard_users (h : InOrder l point j) :
    (users point).encard = (l.next.toNat - l.owner.toNat : ℕ) := by
  have hinj : Set.InjOn (fun t => ((point t).ticket?.getD 0).toNat) (users point) := by
    intro t ht u hu hsame
    obtain ⟨ticket, ht⟩ := Option.isSome_iff_exists.1 ht
    obtain ⟨ticket', hu⟩ := Option.isSome_iff_exists.1 hu
    simp only [ht, hu, Option.getD_some, UInt64.toNat_inj] at hsame
    exact h.eq_of_ticket ht (hsame ▸ hu)
  have himage : (fun t => ((point t).ticket?.getD 0).toNat) '' users point =
      Finset.Ico l.owner.toNat l.next.toNat := by
    ext n
    simp only [Set.mem_image, Finset.coe_Ico, Set.mem_Ico]
    constructor
    · rintro ⟨t, ht, rfl⟩
      obtain ⟨ticket, ht⟩ := Option.isSome_iff_exists.1 ht
      simp only [ht, Option.getD_some]
      exact ⟨UInt64.le_iff_toNat_le.1 (h.owner_le ht), UInt64.lt_iff_toNat_lt.1 (h.lt_next ht)⟩
    · rintro ⟨hle, hlt⟩
      have hword : (UInt64.ofNat n).toNat = n :=
        UInt64.toNat_ofNat_of_lt' (Nat.lt_trans hlt l.next.toNat_lt_size)
      have howner : l.owner ≤ .ofNat n := UInt64.le_iff_toNat_le.2 (hword.symm ▸ hle)
      have hnext : .ofNat n < l.next := UInt64.lt_iff_toNat_lt.2 (hword.symm ▸ hlt)
      obtain ⟨t, ht⟩ := h.exists_ticket howner hnext
      exact ⟨t, Option.isSome_iff_exists.2 ⟨_, ht⟩, by simp only [ht, Option.getD_some, hword]⟩
  rw [← hinj.encard_image, himage, Set.encard_coe_eq_coe_finsetCard, Nat.card_Ico]

/-- Nobody uses the lock exactly if the next free number is being served. -/
theorem users_eq_empty_iff (h : InOrder l point j) : users point = ∅ ↔ l.next = l.owner := by
  have hle := UInt64.le_iff_toNat_le.1 h.owner_le_next
  rw [← Set.encard_eq_zero, h.encard_users, Nat.cast_eq_zero, ← UInt64.toNat_inj]
  omega

end InOrder

/-! ### From one look to the other -/

/-- An access moves at most one of the two counters. -/
theorem access_owner_or_next (choice : Choice) (l : TicketLock) (p : Point) :
    (access choice l p).1.owner = l.owner ∨ (access choice l p).1.next = l.next := by
  cases p with
  | serving ticket => exact .inr rfl
  | trying =>
    rw [access]
    split <;> exact .inl rfl
  | drawingExactly ticket after =>
    rw [access, drawExactly]
    split_ifs <;> exact .inl rfl
  | _ => exact .inl rfl

section Moves

variable [DecidableEq ι] {s : (code ι).State} {j : Ledger ι} {moves : List (code ι).Move}

namespace InOrder

/-- The number being served is never an earlier one later. -/
theorem owner_le_extend (h : InOrder s.memory s.point j)
    (hfew : (j.extend s moves).drawn.length < UInt64.size - 1) :
    s.memory.owner ≤ (Program.run s moves).memory.owner := by
  rw [UInt64.le_iff_toNat_le, h.owner, (h.extend moves hfew).owner]
  exact Ledger.returned_le_extend j s moves

/-- The next free number has been reached by the draws. -/
theorem next_extend (h : InOrder s.memory s.point j)
    (hfew : (j.extend s moves).drawn.length < UInt64.size - 1) :
    (Program.run s moves).memory.next.toNat =
      s.memory.next.toNat + ((j.extend s moves).drawn.length - j.drawn.length) := by
  rw [h.next, (h.extend moves hfew).next]
  exact (Nat.add_sub_cancel' (Ledger.length_drawn_le_extend j s moves)).symm

/-- A number seen as the one being served does not get beyond the next free one. -/
theorem owner_le_next_extend (h : InOrder s.memory s.point j)
    (hfew : (j.extend s moves).drawn.length < UInt64.size - 1) :
    s.memory.owner ≤ (Program.run s moves).memory.next :=
  UInt64.le_trans (h.owner_le_extend hfew) (h.extend moves hfew).owner_le_next

/-- If the next free number is the one that was being served before, nobody uses the lock. -/
theorem users_eq_empty (h : InOrder s.memory s.point j)
    (hfew : (j.extend s moves).drawn.length < UInt64.size - 1)
    (hnext : (Program.run s moves).memory.next = s.memory.owner) :
    users (Program.run s moves).point = ∅ := by
  have hafter := h.extend moves hfew
  refine hafter.users_eq_empty_iff.2 (UInt64.le_antisymm ?_ hafter.owner_le_next)
  rw [hnext]
  exact h.owner_le_extend hfew

/-- On the way from a state in which a number has not been passed by the one being served, to a
state in which its ticket has been drawn, there is a state in which both are so. -/
theorem exists_outstanding {ticket : UInt64} (h : InOrder s.memory s.point j)
    (hfew : (j.extend s moves).drawn.length < UInt64.size - 1) (hle : s.memory.owner ≤ ticket)
    (hlt : ticket < (Program.run s moves).memory.next) :
    ∃ done, done <+: moves ∧ (Program.run s done).memory.owner ≤ ticket ∧
      ticket < (Program.run s done).memory.next := by
  induction moves generalizing s j with
  | nil => exact ⟨[], List.prefix_rfl, hle, hlt⟩
  | cons m moves ih =>
    by_cases hdrawn : ticket < s.memory.next
    · exact ⟨[], List.nil_prefix, hle, hdrawn⟩
    · -- the ticket is not drawn yet, so one move cannot draw it and pass it as well
      have hmoved : InOrder (Program.move s m).memory (Program.move s m).point (j.extend s [m]) :=
        h.extend [m] (Nat.lt_of_le_of_lt (Ledger.length_drawn_le_extend _ _ moves) hfew)
      have hle' : (Program.move s m).memory.owner ≤ ticket := by
        rcases access_owner_or_next m.2 s.memory (s.point m.1) with howner | hnext
        · exact howner ▸ hle
        · refine UInt64.le_trans hmoved.owner_le_next ?_
          exact hnext ▸ UInt64.not_lt.1 hdrawn
      obtain ⟨done, hdone, hfound⟩ := ih hmoved hfew hle' hlt
      exact ⟨m :: done, (List.prefix_cons_inj m).2 hdone, hfound⟩

/-- If the next free number is not the one that was being served before, somebody has used the lock
meanwhile. -/
theorem exists_users (h : InOrder s.memory s.point j)
    (hfew : (j.extend s moves).drawn.length < UInt64.size - 1)
    (hnext : (Program.run s moves).memory.next ≠ s.memory.owner) :
    ∃ done, done <+: moves ∧ (users (Program.run s done).point).Nonempty := by
  have hlt : s.memory.owner < (Program.run s moves).memory.next :=
    UInt64.lt_of_le_of_ne (h.owner_le_next_extend hfew) hnext.symm
  obtain ⟨done, hdone, howner, hdrawn⟩ := h.exists_outstanding hfew (UInt64.le_refl _) hlt
  obtain ⟨rest, rfl⟩ := hdone
  rw [Ledger.extend_append] at hfew
  have hmeanwhile := h.extend done
    (Nat.lt_of_le_of_lt (Ledger.length_drawn_le_extend _ _ rest) hfew)
  obtain ⟨t, ht⟩ := hmeanwhile.exists_ticket howner hdrawn
  exact ⟨done, List.prefix_append _ _, t, Option.isSome_iff_exists.2 ⟨_, ht⟩⟩

end InOrder

end Moves

/-! ### The calls -/

/-- The first look of an attempt finds the number being served. -/
theorem access_trying (choice : Choice) {l : TicketLock}
    (h : (access choice l .trying).2 ≠ .broken) :
    ∃ after, access choice l .trying = (l, .drawingExactly l.owner after) := by
  rw [access] at h ⊢
  split at h
  · exact absurd rfl h
  · next after hadd => exact ⟨after, rfl⟩

/-- The second look of an attempt draws the ticket if its number is still the next free one. -/
theorem access_drawingExactly (choice : Choice) (l : TicketLock) (ticket after : UInt64) :
    access choice l (.drawingExactly ticket after) =
      if l.next = ticket then ({ l with next := after }, .holding ticket) else (l, .idle) := by
  rw [access, drawExactly]
  split_ifs <;> rfl

/-- The difference that a count takes is the exact one if it does not come out negative. -/
theorem toNat_queueLen_of_le {l : TicketLock} (h : l.owner ≤ l.next) :
    l.queueLen.toNat = l.next.toNat - l.owner.toNat := by
  have hle := UInt64.le_iff_toNat_le.1 h
  rw [queueLen, between, outstanding]
  split
  · exact UInt64.toNat_sub_of_le _ _ h
  · next hlt =>
    rw [decide_eq_true_eq, UInt64.lt_iff_toNat_lt] at hlt
    rw [UInt64.toNat_zero]
    omega

theorem isLocked_eq_false_iff {l : TicketLock} (h : l.owner ≤ l.next) :
    l.isLocked = false ↔ l.next = l.owner := by
  have hle := UInt64.le_iff_toNat_le.1 h
  rw [isLocked, decide_eq_false_iff_not, UInt64.lt_iff_toNat_lt, toNat_queueLen_of_le h,
    ← UInt64.toNat_inj, UInt64.toNat_zero]
  omega

section Calls

variable [DecidableEq ι] {s : (code ι).State} {j : Ledger ι} {meanwhile : List (code ι).Move}
  {t : ι}

/-- The first look of an attempt, which does not panic. -/
theorem move_trying (hpoint : s.point t = .trying) (first : (code ι).Choice)
    (hunbroken : (Program.move s (t, first)).point t ≠ .broken) :
    ∃ after, (Program.move s (t, first)).memory = s.memory ∧
      (Program.move s (t, first)).point t = .drawingExactly s.memory.owner after := by
  rw [Program.move_point_self, hpoint] at hunbroken ⊢
  rw [Program.move_memory, hpoint]
  obtain ⟨after, haccess⟩ := access_trying first hunbroken
  exact ⟨after, congrArg Prod.fst haccess, congrArg Prod.snd haccess⟩

/-- The first look of a count. -/
theorem move_counting (hpoint : s.point t = .counting) (first : (code ι).Choice) :
    (Program.move s (t, first)).memory = s.memory ∧
      (Program.move s (t, first)).point t = .countingFrom s.memory.owner := by
  rw [Program.move_memory, Program.move_point_self, hpoint]
  exact ⟨rfl, rfl⟩

namespace InOrder

/-- The second look of an attempt. -/
theorem attempt {after : UInt64} (h : InOrder s.memory s.point j)
    (hpoint : s.point t = .drawingExactly s.memory.owner after)
    (hothers : ∀ m ∈ meanwhile, m.1 ≠ t)
    (hfew : (j.extend s meanwhile).drawn.length < UInt64.size - 1) (second : (code ι).Choice) :
    let s₂ := Program.run s meanwhile
    let s₃ := Program.move s₂ (t, second)
    ((∃ ticket, s₃.point t = .holding ticket) ∧ users s₂.point = ∅) ∨
      (s₃.point t = .idle ∧ s₃.memory = s₂.memory ∧
        ∃ done, done <+: meanwhile ∧ (users (Program.run s done).point).Nonempty) := by
  intro s₂ s₃
  have hlook : (code ι).step t second s₂.memory (s₂.point t) =
      if s₂.memory.next = s.memory.owner then
        ({ s₂.memory with next := after }, .holding s.memory.owner) else (s₂.memory, .idle) := by
    rw [Program.run_point_of_forall_ne s hothers, hpoint]
    exact access_drawingExactly second s₂.memory s.memory.owner after
  have hpoint₃ : s₃.point t = _ := Program.move_point_self s₂ (t, second)
  have hmemory₃ : s₃.memory = _ := Program.move_memory s₂ (t, second)
  rw [hlook] at hpoint₃ hmemory₃
  by_cases hnext : s₂.memory.next = s.memory.owner
  · rw [if_pos hnext] at hpoint₃
    exact .inl ⟨⟨_, hpoint₃⟩, h.users_eq_empty hfew hnext⟩
  · rw [if_neg hnext] at hpoint₃ hmemory₃
    exact .inr ⟨hpoint₃, hmemory₃, h.exists_users hfew hnext⟩

/-- The second look of a count. -/
theorem count (h : InOrder s.memory s.point j) (hpoint : s.point t = .countingFrom s.memory.owner)
    (hothers : ∀ m ∈ meanwhile, m.1 ≠ t)
    (hfew : (j.extend s meanwhile).drawn.length < UInt64.size - 1) (second : (code ι).Choice) :
    let s₂ := Program.run s meanwhile
    let seen : TicketLock := ⟨s₂.memory.next, s.memory.owner⟩
    (Program.move s₂ (t, second)).point t = .counted seen.queueLen ∧
      s.memory.owner ≤ s₂.memory.next ∧
      (seen.queueLen.toNat : ℕ∞) = (users s.point).encard +
        ((j.extend s meanwhile).drawn.length - j.drawn.length : ℕ) ∧
      (users s₂.point).encard ≤ seen.queueLen.toNat ∧
      (seen.isLocked = false → users s₂.point = ∅) ∧
      (seen.isLocked = true →
        ∃ done, done <+: meanwhile ∧ (users (Program.run s done).point).Nonempty) := by
  intro s₂ seen
  have hle : seen.owner ≤ seen.next := h.owner_le_next_extend hfew
  refine ⟨?_, hle, ?_, ?_, ?_, ?_⟩
  · rw [Program.move_point_self, Program.run_point_of_forall_ne s hothers, hpoint]
    rfl
  · have hgrown : seen.next.toNat = _ := h.next_extend hfew
    have howner := UInt64.le_iff_toNat_le.1 h.owner_le_next
    rw [h.encard_users, toNat_queueLen_of_le hle, hgrown, ← Nat.cast_add]
    congr 1
    exact Nat.sub_add_comm howner
  · have hgrown := UInt64.le_iff_toNat_le.1 (h.owner_le_extend hfew)
    rw [(h.extend meanwhile hfew).encard_users, toNat_queueLen_of_le hle]
    exact Nat.cast_le.2 (Nat.sub_le_sub_left hgrown _)
  · intro hfree
    exact h.users_eq_empty hfew ((isLocked_eq_false_iff hle).1 hfree)
  · intro htaken
    refine h.exists_users hfew fun hnext => ?_
    exact Bool.false_ne_true (((isLocked_eq_false_iff hle).2 hnext).symm.trans htaken)

end InOrder

/-- **Two looks at different moments tell what was true at some instant.** A thread makes the first
look of a call, other threads make any moves, and then the thread makes the second look; the tickets
drawn in all stay below the last number of a word.

* An attempt on the lock moves no counter at the first look. It succeeds only if nobody uses the
  lock at the second look. Otherwise it moves no counter then either, and there was an instant
  between the looks at which somebody used the lock.
* A count gives the queue length of a lock with the two numbers seen, the first of which is not
  beyond the second. It is the number of users at the first look plus that of the draws since, and
  at least the number of users at the second look. If a lock with these numbers is free, nobody uses
  the lock at the second look; if it is locked, somebody used the lock at some instant between the
  looks. -/
theorem looks_true_at_some_instant (before meanwhile : List (code ι).Move) (t : ι)
    (first second : (code ι).Choice) (hothers : ∀ m ∈ meanwhile, m.1 ≠ t)
    (hfew : (Ledger.keep (before ++ [(t, first)] ++ meanwhile ++ [(t, second)])).drawn.length <
      UInt64.size - 1) :
    let s₀ := Program.run (Program.start (code ι).toProgram) before
    let s₁ := Program.move s₀ (t, first)
    let s₂ := Program.run s₁ meanwhile
    let s₃ := Program.move s₂ (t, second)
    let seen : TicketLock := ⟨s₂.memory.next, s₀.memory.owner⟩
    let draws := (Ledger.keep (before ++ [(t, first)] ++ meanwhile)).drawn.length -
      (Ledger.keep (before ++ [(t, first)])).drawn.length
    let usedMeanwhile := ∃ done, done <+: meanwhile ∧ (users (Program.run s₁ done).point).Nonempty
    (s₀.point t = .trying → s₁.memory = s₀.memory ∧
        (((∃ ticket, s₃.point t = .holding ticket) ∧ users s₂.point = ∅) ∨
          (s₃.point t = .idle ∧ s₃.memory = s₂.memory ∧ usedMeanwhile))) ∧
      (s₀.point t = .counting → s₃.point t = .counted seen.queueLen ∧ seen.owner ≤ seen.next ∧
        (seen.queueLen.toNat : ℕ∞) = (users s₀.point).encard + draws ∧
        (users s₂.point).encard ≤ seen.queueLen.toNat ∧
        (seen.isLocked = false → users s₂.point = ∅) ∧
        (seen.isLocked = true → usedMeanwhile)) := by
  intro s₀ s₁ s₂ s₃ seen draws usedMeanwhile
  have hrun : Program.run (Program.start (code ι).toProgram) (before ++ [(t, first)]) = s₁ :=
    Program.run_append _ _ _
  -- the bound on all draws covers those up to each of the looks
  rw [Ledger.keep_append] at hfew
  have hfew₂ := Nat.lt_of_le_of_lt (Ledger.length_drawn_le_extend _ _ _) hfew
  rw [Ledger.keep_append] at hfew₂
  have hfew₁ := Nat.lt_of_le_of_lt (Ledger.length_drawn_le_extend _ _ _) hfew₂
  have h₁ := InOrder.keep (before ++ [(t, first)]) hfew₁
  rw [Ledger.keep_append] at hfew₁
  have h₀ := InOrder.keep before (Nat.lt_of_le_of_lt (Ledger.length_drawn_le_extend _ _ _) hfew₁)
  rw [hrun] at h₁ hfew₂
  constructor
  · intro htrying
    obtain ⟨after, hmemory, hlook⟩ := move_trying htrying first (h₁.fits t).ne_broken
    rw [← hmemory] at hlook
    exact ⟨hmemory, h₁.attempt hlook hothers hfew₂ second⟩
  · intro hcounting
    obtain ⟨hmemory, hlook⟩ := move_counting hcounting first
    rw [← hmemory] at hlook
    have hdraws : (Ledger.keep (before ++ [(t, first)])).extend s₁ meanwhile =
        Ledger.keep (before ++ [(t, first)] ++ meanwhile) := by
      rw [Ledger.keep_append _ meanwhile, hrun]
    have hcount := h₁.count hlook hothers hfew₂ second
    rw [h₁.encard_users, hmemory, ← h₀.encard_users, hdraws] at hcount
    exact hcount

/-- While the owner gives the lock back and a third thread draws, an attempt fails although nobody
else used the lock in the end; and a count that began with one user comes out as two, although there
is one user again. -/
theorem looks_true_at_some_instant_two :
    let holds : List (code Nat).Move := [(1, .lock), (1, .proceed), (1, .proceed)]
    let givesBack : List (code Nat).Move :=
      [(1, .unlock), (1, .proceed), (1, .proceed), (1, .proceed)]
    let draws : List (code Nat).Move := [(2, .lock), (2, .proceed)]
    let trying := Program.run (Program.start (code Nat).toProgram) (holds ++ [(0, .tryLock)])
    let tried := Program.run (Program.move trying (0, .proceed)) givesBack
    let counting := Program.run (Program.start (code Nat).toProgram) (holds ++ [(0, .queueLen)])
    let counted := Program.run (Program.move counting (0, .proceed)) (draws ++ givesBack)
    ((∀ m ∈ givesBack, m.1 ≠ 0) ∧ trying.point 0 = .trying ∧ tried.memory = ⟨1, 1⟩ ∧
        (Program.move tried (0, .proceed)).point 0 = .idle ∧
        ∃ done, done <+: givesBack ∧
          (users (Program.run (Program.move trying (0, .proceed)) done).point).Nonempty) ∧
      ((∀ m ∈ draws ++ givesBack, m.1 ≠ 0) ∧ counting.point 0 = .counting ∧
        counted.memory = ⟨2, 1⟩ ∧ (Program.move counted (0, .proceed)).point 0 = .counted 2 ∧
        ((2 : ℕ) : ℕ∞) = (users counting.point).encard + 1) := by
  intro holds givesBack draws trying tried counting counted
  have hothers : ∀ m ∈ givesBack, m.1 ≠ 0 := by decide
  have hothers' : ∀ m ∈ draws ++ givesBack, m.1 ≠ 0 := by decide
  obtain ⟨hattempt, -⟩ := looks_true_at_some_instant (holds ++ [(0, .tryLock)]) givesBack 0
    .proceed .proceed hothers (by decide)
  obtain ⟨-, hcount⟩ := looks_true_at_some_instant (holds ++ [(0, .queueLen)])
    (draws ++ givesBack) 0 .proceed .proceed hothers' (by decide)
  have hcounted : (TicketLock.mk 2 0).queueLen = 2 := by decide
  refine ⟨⟨hothers, rfl, rfl, rfl, ?_⟩, hothers', rfl, rfl, ?_⟩
  · obtain ⟨-, ⟨⟨ticket, hholding⟩, -⟩ | ⟨-, -, hused⟩⟩ := hattempt rfl
    · exact nomatch hholding
    · exact hused
  · obtain ⟨hpoint, -, hexact, -⟩ := hcount rfl
    have htwo : (TicketLock.mk 2 0).queueLen.toNat = 2 := congrArg UInt64.toNat hcounted
    refine ⟨hpoint.trans (congrArg Point.counted hcounted), ?_⟩
    exact (congrArg Nat.cast htwo).symm.trans hexact

end Calls

end Handoff.TicketLock
