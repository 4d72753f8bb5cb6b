import Mathlib.Logic.Function.Basic
import Handoff.Threads.Ticket

/-!
# Tickets are served in order

Threads that use the ticket lock access by access look at its two counters one after the other, and
a thread that only tries compares the one with what the other has been. An onlooker writes down
which tickets were drawn, which of them were granted the lock, and how many were given back
(`TicketLock.Ledger`). What holds in every reachable state is said with his ledger in hand
(`TicketLock.InOrder`):

* the counters are the numbers of tickets drawn and of tickets given back, so neither has wrapped;
* a thread has a ticket exactly if it drew it and the ticket has not been given back, so each
  outstanding number is one thread's, and the thread that owns the lock has the least of them;
* the grants are the first draws, one more than were given back if some thread owns the lock.

What one thread knows of the counters may be stale, but not in a way that matters
(`TicketLock.Point.Fits`): the number being served has at least the value that a thread has read
before, and does not move at all while the reader owns the lock.

An attempt that succeeds draws and is granted its ticket in one access; it is the same as a draw
followed by a grant. All this needs fewer draws than the last number of a word.
-/

namespace Handoff.TicketLock

/-! ### Tickets and owners -/

/-- The ticket of a thread that waits for the lock or owns it. -/
def Point.ticket? : Point → Option UInt64
  | .waiting ticket | .holding ticket | .checking ticket | .comparing ticket _
  | .serving ticket => some ticket
  | _ => none

/-- Whether a thread at a point owns the lock. -/
def Point.isOwner : Point → Bool
  | .holding _ | .checking _ | .comparing _ _ | .serving _ => true
  | _ => false

/-- Whether a thread at a point draws a ticket, or reads a number in order to. -/
def Point.draws : Point → Bool
  | .drawing | .trying | .drawingExactly _ _ => true
  | _ => false

/-- What a thread at a point knows of the number being served. A thread never gets to a broken
point. -/
def Point.Fits (owner : UInt64) : Point → Prop
  | .drawingExactly ticket after => ticket ≤ owner ∧ Word.add? ticket 1 = some after
  | .comparing _ seen => seen = owner
  | .broken => False
  | _ => True

theorem Point.Fits.ne_broken {owner : UInt64} {p : Point} (h : p.Fits owner) : p ≠ .broken := by
  rintro rfl
  exact h

/-- A thread that does not own the lock can miss that other numbers have been served since. -/
theorem Point.Fits.of_le {owner owner' : UInt64} {p : Point} (h : p.Fits owner)
    (hp : p.isOwner = false) (hle : owner ≤ owner') : p.Fits owner' := by
  cases p with
  | drawingExactly ticket after => exact ⟨UInt64.le_trans h.1 hle, h.2⟩
  | comparing ticket seen => exact nomatch hp
  | broken => exact h
  | _ => trivial

/-! ### The ledger -/

/-- What an onlooker knows of the tickets, each with the thread that drew it. -/
structure Ledger (ι : Type) where
  /-- The tickets drawn, in order. -/
  drawn : List (ι × UInt64)
  /-- The tickets whose threads were granted the lock, in order. -/
  granted : List (ι × UInt64)
  /-- The number of tickets given back. -/
  returned : Nat

namespace Ledger

variable {ι : Type}

/-- The ledger before anything has happened. -/
def blank : Ledger ι := ⟨[], [], 0⟩

/-- The ledger after a thread has gone from one point to another. -/
def note (j : Ledger ι) (t : ι) (before after : Point) : Ledger ι where
  drawn :=
    if before.ticket? = none then j.drawn ++ (after.ticket?.map (t, ·)).toList else j.drawn
  granted :=
    if before.isOwner = false ∧ after.isOwner = true then
      j.granted ++ (after.ticket?.map (t, ·)).toList
    else j.granted
  returned :=
    if before.isOwner = true ∧ after.isOwner = false then j.returned + 1 else j.returned

/-- The ledger after further moves. -/
def extend [DecidableEq ι] (j : Ledger ι) (s : (code ι).State) (moves : List (code ι).Move) :
    Ledger ι :=
  Program.watch (fun s m s' j => j.note m.1 (s.point m.1) (s'.point m.1)) s j moves

/-- The ledger of a schedule. -/
def keep [DecidableEq ι] (schedule : List (code ι).Move) : Ledger ι :=
  Program.watch (fun s m s' j => j.note m.1 (s.point m.1) (s'.point m.1))
    (Program.start (code ι).toProgram) blank schedule

variable {j : Ledger ι} {t : ι} {before after : Point}

theorem note_of_same (hticket : after.ticket? = before.ticket?)
    (howner : after.isOwner = before.isOwner) : j.note t before after = j := by
  rw [note, hticket, howner]
  cases before.ticket? <;> cases before.isOwner <;> simp

/-- Draws are never struck out. -/
theorem length_drawn_le_note : j.drawn.length ≤ (j.note t before after).drawn.length := by
  rw [note]
  split
  · rw [List.length_append]
    exact Nat.le_add_right _ _
  · exact Nat.le_refl _

/-- Nor is a ticket that was given back taken again. -/
theorem returned_le_note : j.returned ≤ (j.note t before after).returned := by
  simp only [note]
  split
  · exact Nat.le_succ _
  · exact Nat.le_refl _

section Extend

variable [DecidableEq ι] {s : (code ι).State}

theorem keep_append (first second : List (code ι).Move) :
    keep (first ++ second) =
      (keep first).extend (Program.run (Program.start (code ι).toProgram) first) second :=
  Program.watch_append _ _ _ first second

theorem extend_append (j : Ledger ι) (first second : List (code ι).Move) :
    j.extend s (first ++ second) = (j.extend s first).extend (Program.run s first) second :=
  Program.watch_append _ _ _ first second

theorem length_drawn_le_extend (j : Ledger ι) (s : (code ι).State) (moves : List (code ι).Move) :
    j.drawn.length ≤ (j.extend s moves).drawn.length :=
  Program.watch_of_step (I := fun _ (j' : Ledger ι) => j.drawn.length ≤ j'.drawn.length)
    (fun _ _ _ h => Nat.le_trans h length_drawn_le_note) (Nat.le_refl _) moves

theorem returned_le_extend (j : Ledger ι) (s : (code ι).State) (moves : List (code ι).Move) :
    j.returned ≤ (j.extend s moves).returned :=
  Program.watch_of_step (I := fun _ (j' : Ledger ι) => j.returned ≤ j'.returned)
    (fun _ _ _ h => Nat.le_trans h returned_le_note) (Nat.le_refl _) moves

end Extend

end Ledger

/-! ### The invariant -/

/-- An entry of a longer list is one of the old list, or it is the last one. -/
theorem getElem?_concat_eq_some_iff {α : Type} {l : List α} {a b : α} {i : Nat} :
    (l ++ [a])[i]? = some b ↔ l[i]? = some b ∨ i = l.length ∧ a = b := by
  rcases Nat.lt_trichotomy i l.length with hlt | rfl | hlt
  · rw [List.getElem?_append_left hlt]
    exact ⟨.inl, fun h => h.resolve_right fun h' => absurd h'.1 (Nat.ne_of_lt hlt)⟩
  · simp
  · rw [List.getElem?_eq_none (by rw [List.length_append, List.length_singleton]; omega),
      List.getElem?_eq_none (Nat.le_of_lt hlt)]
    refine ⟨nofun, fun h => h.elim nofun fun h' => ?_⟩
    exact absurd h'.1 (Nat.ne_of_gt hlt)

section Invariant

variable {ι : Type}

/-- The counters and the points of all threads are what the ledger says. -/
structure InOrder (l : TicketLock) (point : ι → Point) (j : Ledger ι) : Prop where
  next : l.next.toNat = j.drawn.length
  owner : l.owner.toNat = j.returned
  returned_le : j.returned ≤ j.drawn.length
  numbered : ∀ {i : Nat} {t : ι} {ticket : UInt64}, j.drawn[i]? = some (t, ticket) →
    ticket.toNat = i
  /-- The tickets that threads have are those drawn and not given back. -/
  ticket_iff : ∀ {t ticket}, (point t).ticket? = some ticket ↔
    j.returned ≤ ticket.toNat ∧ j.drawn[ticket.toNat]? = some (t, ticket)
  served : ∀ {t}, (point t).isOwner = true → (point t).ticket? = some l.owner
  granted_of_free : (∀ t, (point t).isOwner = false) → j.granted = j.drawn.take j.returned
  granted_of_owned : ∀ {t}, (point t).isOwner = true → j.granted = j.drawn.take (j.returned + 1)
  fits : ∀ t, (point t).Fits l.owner

namespace InOrder

variable {l : TicketLock} {point : ι → Point} {j : Ledger ι} {t u : ι} {ticket : UInt64}
  {p : Point}

/-- No two threads have the same ticket. -/
theorem eq_of_ticket (h : InOrder l point j) (ht : (point t).ticket? = some ticket)
    (hu : (point u).ticket? = some ticket) : t = u := by
  have hdrawn := (h.ticket_iff.1 ht).2.symm.trans (h.ticket_iff.1 hu).2
  exact congrArg Prod.fst (Option.some.inj hdrawn)

/-- At most one thread owns the lock. -/
theorem eq_of_owner (h : InOrder l point j) (ht : (point t).isOwner = true)
    (hu : (point u).isOwner = true) : t = u :=
  h.eq_of_ticket (h.served ht) (h.served hu)

/-- A ticket that a thread has is not below the number being served. -/
theorem owner_le (h : InOrder l point j) (ht : (point t).ticket? = some ticket) :
    l.owner ≤ ticket := by
  rw [UInt64.le_iff_toNat_le, h.owner]
  exact (h.ticket_iff.1 ht).1

/-- A ticket that a thread has is below the next free number. -/
theorem lt_next (h : InOrder l point j) (ht : (point t).ticket? = some ticket) :
    ticket < l.next := by
  rw [UInt64.lt_iff_toNat_lt, h.next]
  exact (List.getElem?_eq_some_iff.1 (h.ticket_iff.1 ht).2).1

theorem owner_le_next (h : InOrder l point j) : l.owner ≤ l.next := by
  rw [UInt64.le_iff_toNat_le, h.owner, h.next]
  exact h.returned_le

/-- Every outstanding number is the ticket of some thread. -/
theorem exists_ticket (h : InOrder l point j) (hle : l.owner ≤ ticket) (hlt : ticket < l.next) :
    ∃ t, (point t).ticket? = some ticket := by
  rw [UInt64.le_iff_toNat_le, h.owner] at hle
  rw [UInt64.lt_iff_toNat_lt, h.next] at hlt
  obtain ⟨⟨t, drawn⟩, hdrawn⟩ : ∃ draw, j.drawn[ticket.toNat]? = some draw :=
    ⟨_, List.getElem?_eq_getElem hlt⟩
  obtain rfl : drawn = ticket := UInt64.toNat_inj.1 (h.numbered hdrawn)
  exact ⟨t, h.ticket_iff.2 ⟨hle, hdrawn⟩⟩

/-- The owner has one of the tickets drawn. -/
theorem returned_lt (h : InOrder l point j) (ht : (point t).isOwner = true) :
    j.returned < j.drawn.length := by
  have hlt := h.lt_next (h.served ht)
  rw [UInt64.lt_iff_toNat_lt, h.owner, h.next] at hlt
  exact hlt

/-- The grants are the first draws. -/
theorem granted_prefix (h : InOrder l point j) : j.granted <+: j.drawn := by
  by_cases howned : ∃ t, (point t).isOwner = true
  · obtain ⟨t, ht⟩ := howned
    rw [h.granted_of_owned ht]
    exact List.take_prefix _ _
  · have hfree : ∀ t, (point t).isOwner = false := by
      intro t
      rw [Bool.eq_false_iff]
      intro ht
      exact howned ⟨t, ht⟩
    rw [h.granted_of_free hfree]
    exact List.take_prefix _ _

/-! ### What a thread does alone -/

variable [DecidableEq ι]

/-- When a thread has moved on and does not own the lock now, an owner is another thread and owned
the lock before. -/
theorem owner_of_update (hp : p.isOwner = false)
    (hu : (Function.update point t p u).isOwner = true) : u ≠ t ∧ (point u).isOwner = true := by
  rcases eq_or_ne u t with rfl | hne
  · rw [Function.update_self, hp] at hu
    exact nomatch hu
  · rw [Function.update_of_ne hne] at hu
    exact ⟨hne, hu⟩

/-- What is the same of a thread that has moved on is the same of all threads. -/
theorem apply_update_eq {β : Type} (f : Point → β) (hp : f p = f (point t)) (u : ι) :
    f (Function.update point t p u) = f (point u) := by
  rcases eq_or_ne u t with rfl | hne
  · rw [Function.update_self, hp]
  · rw [Function.update_of_ne hne]

/-- A thread moves on without a change of what the onlooker sees. -/
theorem stay (h : InOrder l point j) (hticket : p.ticket? = (point t).ticket?)
    (howner : p.isOwner = (point t).isOwner) (hfits : p.Fits l.owner) :
    InOrder l (Function.update point t p) j := by
  have htickets : ∀ u, (Function.update point t p u).ticket? = (point u).ticket? :=
    apply_update_eq Point.ticket? hticket
  have howners : ∀ u, (Function.update point t p u).isOwner = (point u).isOwner :=
    apply_update_eq Point.isOwner howner
  refine ⟨h.next, h.owner, h.returned_le, h.numbered, ?_, ?_, ?_, ?_, ?_⟩
  · intro u ticket
    rw [htickets]
    exact h.ticket_iff
  · intro u hu
    rw [howners] at hu
    rw [htickets]
    exact h.served hu
  · intro hfree
    exact h.granted_of_free fun u => (howners u).symm.trans (hfree u)
  · intro u hu
    rw [howners] at hu
    exact h.granted_of_owned hu
  · exact (Function.forall_update_iff point fun _ p => p.Fits l.owner).2
      ⟨hfits, fun u _ => h.fits u⟩

/-- A thread without a ticket draws the next free one. -/
theorem draw (h : InOrder l point j) (hp : (point t).ticket? = none)
    (hroom : j.drawn.length < UInt64.size - 1) :
    InOrder { l with next := l.next + 1 } (Function.update point t (.waiting l.next))
      { j with drawn := j.drawn ++ [(t, l.next)] } := by
  have hlength : (j.drawn ++ [(t, l.next)]).length = j.drawn.length + 1 :=
    List.length_append
  have hidle : (point t).isOwner = false := by
    rw [Bool.eq_false_iff]
    intro howner
    exact nomatch hp.symm.trans (h.served howner)
  have hnext := h.next
  have hle := h.returned_le
  have htake : ∀ n ≤ j.drawn.length,
      (j.drawn ++ [(t, l.next)]).take n = j.drawn.take n :=
    fun n hn => List.take_append_of_le_length hn
  refine ⟨?_, h.owner, ?_, ?_, ?_, ?_, ?_, ?_, ?_⟩
  · rw [hlength, ← hnext]
    exact Word.toNat_succ (by omega)
  · rw [hlength]
    exact Nat.le_succ_of_le hle
  · intro i u ticket hdrawn
    rcases getElem?_concat_eq_some_iff.1 hdrawn with hold | ⟨rfl, hnew⟩
    · exact h.numbered hold
    · rw [← hnext]
      exact congrArg (fun draw => draw.2.toNat) hnew.symm
  · intro u ticket
    rw [getElem?_concat_eq_some_iff]
    rcases eq_or_ne u t with rfl | hu
    · rw [Function.update_self]
      constructor
      · intro hticket
        obtain rfl := Option.some.inj hticket
        exact ⟨hnext ▸ hle, .inr ⟨hnext, rfl⟩⟩
      · rintro ⟨hge, hold | ⟨-, hnew⟩⟩
        · exact nomatch hp.symm.trans (h.ticket_iff.2 ⟨hge, hold⟩)
        · exact congrArg some (congrArg Prod.snd hnew)
    · rw [Function.update_of_ne hu]
      refine h.ticket_iff.trans (and_congr_right fun _ => ⟨.inl, fun hdrawn => ?_⟩)
      exact hdrawn.resolve_right fun hnew => hu (congrArg Prod.fst hnew.2).symm
  · intro u hu
    obtain ⟨hne, howned⟩ := owner_of_update rfl hu
    rw [Function.update_of_ne hne]
    exact h.served howned
  · intro hfree
    rw [htake _ hle]
    refine h.granted_of_free fun u => ?_
    rcases eq_or_ne u t with rfl | hne
    · exact hidle
    · have hu := hfree u
      rw [Function.update_of_ne hne] at hu
      exact hu
  · intro u hu
    obtain ⟨-, howned⟩ := owner_of_update rfl hu
    rw [htake _ (h.returned_lt howned)]
    exact h.granted_of_owned howned
  · exact (Function.forall_update_iff point fun _ p => p.Fits l.owner).2
      ⟨trivial, fun u _ => h.fits u⟩

/-- A thread whose ticket is being served is granted the lock. -/
theorem enter (h : InOrder l point j) (hp : point t = .waiting ticket)
    (hserves : l.owner = ticket) :
    InOrder l (Function.update point t (.holding ticket))
      { j with granted := j.granted ++ [(t, ticket)] } := by
  have hticket : (point t).ticket? = some ticket := by rw [hp]; rfl
  have howner : ticket.toNat = j.returned := by rw [← hserves, h.owner]
  -- another owner would have the same ticket
  have hfree : ∀ u, (point u).isOwner = false := by
    intro u
    rw [Bool.eq_false_iff]
    intro hu
    have hsame := h.served hu
    rw [hserves] at hsame
    obtain rfl := h.eq_of_ticket hsame hticket
    rw [hp] at hu
    exact nomatch hu
  refine ⟨h.next, h.owner, h.returned_le, h.numbered, ?_, ?_, ?_, ?_, ?_⟩
  · intro u ticket'
    have hsame : (Point.holding ticket).ticket? = (point t).ticket? := hticket.symm
    rw [← h.ticket_iff, apply_update_eq Point.ticket? hsame]
  · intro u hu
    rcases eq_or_ne u t with rfl | hne
    · rw [Function.update_self]
      exact congrArg some hserves.symm
    · rw [Function.update_of_ne hne] at hu
      exact nomatch (hfree u).symm.trans hu
  · intro hnone
    have ht := hnone t
    rw [Function.update_self] at ht
    exact nomatch ht
  · intro u hu
    have hdrawn := (h.ticket_iff.1 hticket).2
    rw [howner] at hdrawn
    rw [List.take_add_one, hdrawn, h.granted_of_free hfree]
    rfl
  · exact (Function.forall_update_iff point fun _ p => p.Fits l.owner).2
      ⟨trivial, fun u _ => h.fits u⟩

/-- The owner serves the next number. -/
theorem giveBack (h : InOrder l point j) (hp : (point t).isOwner = true) :
    InOrder l.serveNext (Function.update point t .idle)
      { j with returned := j.returned + 1 } := by
  have hserved := h.served hp
  have howner := h.owner
  have hnext := h.next
  have hlt := h.returned_lt hp
  have hword := l.next.toNat_lt_size
  have hsucc : l.serveNext.owner.toNat = j.returned + 1 := by
    rw [← howner]
    exact Word.toNat_succ (by omega)
  have hothers : ∀ u, u ≠ t → (point u).isOwner = false := by
    intro u hne
    rw [Bool.eq_false_iff]
    intro hu
    exact hne (h.eq_of_owner hu hp)
  refine ⟨hnext, hsucc, hlt, h.numbered, ?_, ?_, ?_, ?_, ?_⟩
  · intro u ticket
    rcases eq_or_ne u t with rfl | hne
    · rw [Function.update_self]
      refine ⟨nofun, fun ⟨hge, hdrawn⟩ => ?_⟩
      have hold := h.ticket_iff.2 ⟨Nat.le_of_succ_le hge, hdrawn⟩
      obtain rfl := Option.some.inj (hserved.symm.trans hold)
      rw [howner] at hge
      exact absurd hge (Nat.not_succ_le_self _)
    · rw [Function.update_of_ne hne, h.ticket_iff]
      refine and_congr_left fun hdrawn => ⟨fun hge => ?_, Nat.le_of_succ_le⟩
      -- the ticket that is given back is not the ticket of another thread
      refine Nat.lt_of_le_of_ne hge fun heq => hne ?_
      have hsame := (h.ticket_iff.1 hserved).2
      rw [howner, heq] at hsame
      exact congrArg Prod.fst (Option.some.inj (hdrawn.symm.trans hsame))
  · intro u hu
    obtain ⟨hne, howned⟩ := owner_of_update rfl hu
    exact nomatch (hothers u hne).symm.trans howned
  · intro _
    exact h.granted_of_owned hp
  · intro u hu
    obtain ⟨hne, howned⟩ := owner_of_update rfl hu
    exact nomatch (hothers u hne).symm.trans howned
  · intro u
    rcases eq_or_ne u t with rfl | hne
    · rw [Function.update_self]
      trivial
    · rw [Function.update_of_ne hne]
      refine (h.fits u).of_le (hothers u hne) ?_
      rw [UInt64.le_iff_toNat_le, hsucc, howner]
      exact Nat.le_succ _

/-- A thread whose attempt finds the number that it has read before still free draws that number,
and is granted the lock at once. -/
theorem drawServed {after : UInt64} (h : InOrder l point j)
    (hp : point t = .drawingExactly ticket after) (hfree : l.next = ticket)
    (hroom : j.drawn.length < UInt64.size - 1) :
    InOrder { l with next := after } (Function.update point t (.holding ticket))
      { j with drawn := j.drawn ++ [(t, ticket)], granted := j.granted ++ [(t, ticket)] } := by
  have hfits : (point t).Fits l.owner := h.fits t
  rw [hp] at hfits
  obtain ⟨hle, hafter⟩ := hfits
  obtain rfl := hfree
  -- nobody is in front, because the number being served has come up to the next free one
  have hserves : l.owner = l.next := UInt64.le_antisymm h.owner_le_next hle
  have hdraw := h.draw (t := t) (by rw [hp]; rfl) hroom
  have henter := hdraw.enter (t := t) (Function.update_self _ _ _) hserves
  obtain rfl : after = l.next + 1 := by
    rw [← UInt64.toNat_inj, Word.add?_eq_some_iff.1 hafter, Word.toNat_succ]
    · rfl
    · rw [h.next]
      omega
  rw [Function.update_idem] at henter
  exact henter

end InOrder

/-! ### Accesses -/

section Access

variable {l : TicketLock} {point : ι → Point} {j : Ledger ι} {t : ι} {p : Point}

/-- What an access from a point leads to is what the ledger says after it. -/
def Orderly [DecidableEq ι] (point : ι → Point) (j : Ledger ι) (t : ι) (p : Point)
    (after : TicketLock × Point) : Prop :=
  InOrder after.1 (Function.update point t after.2) (j.note t p after.2)

variable [DecidableEq ι]

theorem Orderly.stay {p' : Point} (h : InOrder l point j) (hp : point t = p)
    (hticket : p'.ticket? = p.ticket?) (howner : p'.isOwner = p.isOwner)
    (hfits : p'.Fits l.owner) : Orderly point j t p (l, p') := by
  subst hp
  rw [Orderly, Ledger.note_of_same hticket howner]
  exact h.stay hticket howner hfits

/-- A thread without a call under way that does not own the lock stays where it is or starts a
call. -/
theorem Orderly.call (h : InOrder l point j) (hp : point t = p) (hticket : p.ticket? = none)
    (howner : p.isOwner = false) (choice : Choice) :
    Orderly point j t p (l, TicketLock.call p choice) := by
  have hfits : p.Fits l.owner := hp ▸ h.fits t
  cases choice with
  | lock => exact .stay h hp hticket.symm howner.symm trivial
  | tryLock => exact .stay h hp hticket.symm howner.symm trivial
  | queueLen => exact .stay h hp hticket.symm howner.symm trivial
  | unlock => exact .stay h hp rfl rfl hfits
  | proceed => exact .stay h hp rfl rfl hfits

/-- Every access leads to what the ledger says after it. There has to be a ticket left only if one is
drawn. -/
theorem orderly_access (h : InOrder l point j)
    (hroom : p.draws = true → j.drawn.length < UInt64.size - 1)
    (hp : point t = p) (choice : Choice) : Orderly point j t p (access choice l p) := by
  have hfits : p.Fits l.owner := hp ▸ h.fits t
  cases p with
  | idle => exact .call h hp rfl rfl choice
  | counted n => exact .call h hp rfl rfl choice
  | drawing => exact h.draw (by rw [hp]; rfl) (hroom rfl)
  | waiting ticket =>
    rw [access]
    split
    · next hserves => exact h.enter hp (of_decide_eq_true hserves)
    · exact .stay h hp rfl rfl trivial
  | holding ticket =>
    rw [access]
    split
    · exact .stay h hp rfl rfl trivial
    · exact .stay h hp rfl rfl trivial
  | trying =>
    have hroom := hroom rfl
    have hnext := h.next
    have hle := UInt64.le_iff_toNat_le.1 h.owner_le_next
    rw [access]
    split
    · next hadd =>
      -- fewer tickets are drawn than would make the checked sum overflow
      have hone : (1 : UInt64).toNat = 1 := rfl
      rw [Word.add?_eq_none_iff, hone] at hadd
      omega
    · next after hadd => exact .stay h hp rfl rfl ⟨UInt64.le_refl _, hadd⟩
  | drawingExactly ticket after =>
    rw [access, drawExactly]
    by_cases hfree : l.next = ticket
    · rw [if_pos hfree]
      exact h.drawServed hp hfree (hroom rfl)
    · rw [if_neg hfree]
      exact .stay h hp rfl rfl trivial
  | checking ticket => exact .stay h hp rfl rfl rfl
  | comparing ticket seen =>
    -- the number being served is the ticket of the owner, so it is drawn
    have hlt : seen < l.next := by
      rw [show seen = l.owner from hfits]
      exact h.lt_next (h.served (t := t) (by rw [hp]; rfl))
    rw [access, outstanding, decide_eq_true hlt]
    exact .stay h hp rfl rfl trivial
  | serving ticket => exact h.giveBack (by rw [hp]; rfl)
  | counting => exact .stay h hp rfl rfl trivial
  | countingFrom owner => exact .stay h hp rfl rfl trivial
  | broken => exact hfits.elim

/-- The points after an access, of whatever form they are given in. -/
theorem Orderly.inOrder {point' : ι → Point} {after : TicketLock × Point}
    (h : Orderly point j t p after) (hself : point' t = after.2)
    (hother : ∀ u, u ≠ t → point' u = point u) :
    InOrder after.1 point' (j.note t p (point' t)) := by
  obtain rfl : point' = Function.update point t after.2 :=
    Function.eq_update_iff.2 ⟨hself, hother⟩
  rw [Function.update_self]
  exact h

end Access

/-! ### Every schedule -/

section Run

theorem inOrder_start : InOrder new (fun _ : ι => .idle) .blank where
  next := rfl
  owner := rfl
  returned_le := Nat.le_refl _
  numbered := nofun
  ticket_iff := ⟨nofun, nofun⟩
  served := nofun
  granted_of_free _ := rfl
  granted_of_owned := nofun
  fits _ := trivial

variable [DecidableEq ι]

theorem InOrder.move {s : (code ι).State} {j : Ledger ι} (h : InOrder s.memory s.point j)
    {m : (code ι).Move} (hroom : (s.point m.1).draws = true → j.drawn.length < UInt64.size - 1) :
    InOrder (Program.move s m).memory (Program.move s m).point
      (j.note m.1 (s.point m.1) ((Program.move s m).point m.1)) :=
  (orderly_access h hroom rfl m.2).inOrder (Program.move_point_self s m)
    fun _ hne => Program.move_point_of_ne s hne

/-- As long as there are tickets to draw, further moves lead to what the ledger says. -/
theorem InOrder.extend {s : (code ι).State} {j : Ledger ι} (h : InOrder s.memory s.point j)
    (moves : List (code ι).Move) (hfew : (j.extend s moves).drawn.length < UInt64.size - 1) :
    InOrder (Program.run s moves).memory (Program.run s moves).point (j.extend s moves) := by
  refine Program.watch_of_step
    (I := fun s j => j.drawn.length < UInt64.size - 1 → InOrder s.memory s.point j)
    (fun s m j ih hroom => ?_) (fun _ => h) moves hfew
  -- the bound on the draws of all moves covers those up to each of them
  have hbefore := Nat.lt_of_le_of_lt j.length_drawn_le_note hroom
  exact (ih hbefore).move fun _ => hbefore

/-- As long as there are tickets to draw, a schedule leads to what its ledger says. -/
theorem InOrder.keep (schedule : List (code ι).Move)
    (hfew : (Ledger.keep schedule).drawn.length < UInt64.size - 1) :
    let s := Program.run (Program.start (code ι).toProgram) schedule
    InOrder s.memory s.point (.keep schedule) :=
  inOrder_start.extend (s := Program.start (code ι).toProgram) schedule hfew

/-- **Tickets are served in order.** After any schedule with fewer draws than the last number of a
word: the number being served is at most the next free one, each number from the one up to the other
is the ticket of exactly one thread, which waits or owns the lock, and no thread has another ticket.
At most one thread owns the lock, and its ticket is being served. The tickets have been drawn in the
order of their numbers, and granted the lock in the order of the draws. The counters are exactly the
numbers of tickets drawn and given back, no checked sum has overflown, and no release has found that
no ticket is being served. -/
theorem tickets_served_in_order (schedule : List (code ι).Move)
    (hfew : (Ledger.keep schedule).drawn.length < UInt64.size - 1) :
    let s := Program.run (Program.start (code ι).toProgram) schedule
    let j := Ledger.keep schedule
    s.memory.owner ≤ s.memory.next ∧
      (∀ ticket, s.memory.owner ≤ ticket → ticket < s.memory.next →
        ∃! t, (s.point t).ticket? = some ticket) ∧
      (∀ t ticket, (s.point t).ticket? = some ticket →
        s.memory.owner ≤ ticket ∧ ticket < s.memory.next) ∧
      (∀ t, (s.point t).isOwner = true → (s.point t).ticket? = some s.memory.owner) ∧
      (∀ t u, (s.point t).isOwner = true → (s.point u).isOwner = true → t = u) ∧
      (∀ i t (ticket : UInt64), j.drawn[i]? = some (t, ticket) → ticket.toNat = i) ∧
      j.granted <+: j.drawn ∧
      s.memory.next.toNat = j.drawn.length ∧
      s.memory.owner.toNat = j.returned ∧
      ∀ t, s.point t ≠ .broken := by
  intro s j
  have h : InOrder s.memory s.point j := InOrder.keep schedule hfew
  refine ⟨h.owner_le_next, ?_, ?_, ?_, ?_, fun i t ticket => h.numbered, h.granted_prefix, h.next,
    h.owner, fun t => (h.fits t).ne_broken⟩
  · intro ticket hle hlt
    obtain ⟨t, ht⟩ := h.exists_ticket hle hlt
    exact ⟨t, ht, fun u hu => h.eq_of_ticket hu ht⟩
  · intro t ticket ht
    exact ⟨h.owner_le ht, h.lt_next ht⟩
  · intro t ht
    exact h.served ht
  · intro t u ht hu
    exact h.eq_of_owner ht hu

/-- One thread has given the lock back, the next one has it, and a third one waits. -/
theorem tickets_served_in_order_three :
    let schedule : List (code Nat).Move :=
      [(0, .tryLock), (0, .proceed), (1, .lock), (0, .proceed), (1, .proceed), (2, .lock),
        (2, .proceed), (1, .proceed), (0, .unlock), (0, .proceed), (0, .proceed), (0, .proceed),
        (2, .proceed), (1, .proceed)]
    let s := Program.run (Program.start (code Nat).toProgram) schedule
    let j := Ledger.keep schedule
    j.drawn.length < UInt64.size - 1 ∧ s.memory = ⟨3, 1⟩ ∧ s.point 1 = .holding 1 ∧
      j.granted = [(0, 0), (1, 1)] ∧ j.granted <+: j.drawn ∧
      ∃! t, (s.point t).ticket? = some 2 := by
  intro schedule s j
  have hfew : j.drawn.length < UInt64.size - 1 := by decide
  have hmemory : s.memory = ⟨3, 1⟩ := rfl
  obtain ⟨-, hone, -, -, -, -, hgranted, -⟩ := tickets_served_in_order schedule hfew
  exact ⟨hfew, hmemory, rfl, rfl, hgranted, hone 2 (by decide) (by decide)⟩

end Run

end Invariant

end Handoff.TicketLock
