import Mathlib.Data.List.Basic
import Handoff.Lock.Ticket
import Handoff.Proofs.Lock.Custody

/-!
# The custody of the ticket lock

As long as no counter has gone around, the tickets of a line are the numbers from the one that is
being served up to the next free one (`TicketLock.Serves`). So the second one of a line has the
number that a release serves. The number of tickets drawn is the next free number, and the last
number of a word is never drawn.
-/

namespace Handoff.TicketLock

/-- After `n` draws the line has the tickets from the one being served on. -/
structure Serves (n : Nat) (l : TicketLock) (line : List UInt64) : Prop where
  next : l.next.toNat = n
  owner : l.owner.toNat + line.length = n
  tickets : line.map UInt64.toNat = List.range' l.owner.toNat line.length

namespace Serves

variable {n : Nat} {l : TicketLock} {ticket heir : UInt64} {line : List UInt64}

/-- The number being served is the next free one exactly if nobody is in the line. -/
theorem owner_eq_next_iff (h : Serves n l line) : l.owner = l.next ↔ line = [] := by
  have hnext := h.next
  have howner := h.owner
  rw [← UInt64.toNat_inj, ← List.length_eq_zero_iff]
  omega

theorem outstanding_eq (h : Serves n l line) : outstanding l.owner l.next = !line.isEmpty := by
  have hnext := h.next
  have howner := h.owner
  cases line with
  | nil =>
    rw [List.length_nil] at howner
    refine decide_eq_false fun hlt => ?_
    have := UInt64.lt_iff_toNat_lt.1 hlt
    omega
  | cons ticket line =>
    rw [List.length_cons] at howner
    exact decide_eq_true (UInt64.lt_iff_toNat_lt.2 (by omega))

/-- The number of those in the line. -/
theorem toNat_queueLen (h : Serves n l line) : l.queueLen.toNat = line.length := by
  have hnext := h.next
  have howner := h.owner
  rw [queueLen, between, h.outstanding_eq]
  cases line with
  | nil => rfl
  | cons ticket line =>
    have hle : l.owner ≤ l.next := UInt64.le_iff_toNat_le.2 (by omega)
    change (l.next - l.owner).toNat = _
    rw [UInt64.toNat_sub_of_le _ _ hle]
    omega

theorem isLocked_eq (h : Serves n l line) : l.isLocked = !line.isEmpty := by
  have hlen := h.toNat_queueLen
  cases line with
  | nil =>
    refine decide_eq_false fun hlt => ?_
    have hpos := UInt64.lt_iff_toNat_lt.1 hlt
    rw [hlen] at hpos
    exact Nat.not_lt_zero _ hpos
  | cons ticket line =>
    refine decide_eq_true (UInt64.lt_iff_toNat_lt.2 ?_)
    rw [hlen]
    exact Nat.succ_pos _

/-! ### Draws -/

/-- A draw puts the next free number at the end of the line. -/
theorem draw (h : Serves n l line) (hroom : n < UInt64.size - 1) :
    Serves (n + 1) { l with next := l.next + 1 } (line ++ [l.next]) := by
  have hnext := h.next
  have howner := h.owner
  refine ⟨?_, ?_, ?_⟩
  · rw [Word.toNat_succ (by omega), hnext]
  · rw [List.length_append, List.length_singleton]
    change l.owner.toNat + (line.length + 1) = n + 1
    omega
  · rw [List.map_append, h.tickets, List.length_append, List.length_singleton,
      List.range'_1_concat, howner, ← hnext]
    rfl

/-- An attempt on a free lock draws the number that is being served. -/
theorem tryLock_nil (h : Serves n l []) (hroom : n < UInt64.size - 1) :
    l.tryLock = .ok (some l.next, { l with next := l.next + 1 }) := by
  have hnext := h.next
  have howner : l.owner = l.next := h.owner_eq_next_iff.2 rfl
  have hone : (1 : UInt64).toNat = 1 := rfl
  have hafter : Word.add? l.next 1 = some (l.next + 1) := by
    rw [Word.add?_eq_some_iff, hone, Word.toNat_succ (by omega)]
  simp only [TicketLock.tryLock, howner, hafter, drawExactly, if_true]

/-- An attempt on a held lock draws nothing. -/
theorem tryLock_cons (h : Serves n l (ticket :: line)) : l.tryLock = .ok (none, l) := by
  have hnext := h.next
  have howner := h.owner
  have hword := l.next.toNat_lt_size
  have hone : (1 : UInt64).toNat = 1 := rfl
  rw [List.length_cons] at howner
  -- there is a ticket behind the one being served, so the checked sum fits
  have hafter : Word.add? l.owner 1 = some (l.owner + 1) := by
    rw [Word.add?_eq_some_iff, hone, Word.toNat_succ (by omega)]
  have hne : l.next ≠ l.owner := fun e => nomatch h.owner_eq_next_iff.1 e.symm
  simp only [TicketLock.tryLock, hafter, drawExactly, if_neg hne, Bool.false_eq_true, if_false]

/-! ### Releases -/

theorem unlock_nil (h : Serves n l []) : l.unlock = .error .nobodyServed := by
  rw [unlock, h.outstanding_eq]
  rfl

/-- A release serves the number behind that of the holder. -/
theorem unlock_cons (h : Serves n l (ticket :: line)) : l.unlock = .ok l.serveNext := by
  rw [unlock, h.outstanding_eq]
  rfl

/-- Whoever is first in the line has the number that is being served. -/
theorem serves_head (h : Serves n l (ticket :: line)) : l.serves ticket = true := by
  have htickets := h.tickets
  rw [List.map_cons, List.length_cons, List.range'_succ, List.cons.injEq] at htickets
  exact decide_eq_true (UInt64.toNat_inj.1 htickets.1.symm)

theorem serveNext (h : Serves n l (ticket :: line)) : Serves n l.serveNext line := by
  have hnext := h.next
  have howner := h.owner
  have htickets := h.tickets
  have hword := l.next.toNat_lt_size
  rw [List.length_cons] at howner
  rw [List.map_cons, List.length_cons, List.range'_succ, List.cons.injEq] at htickets
  have hsucc : (l.owner + 1).toNat = l.owner.toNat + 1 :=
    Word.toNat_succ (by omega)
  refine ⟨hnext, ?_, ?_⟩
  · change (l.owner + 1).toNat + line.length = n
    omega
  · change line.map UInt64.toNat = List.range' (l.owner + 1).toNat line.length
    rw [hsucc]
    exact htickets.2

end Serves

/-- The line behind the counters. The last number of a word is never drawn. -/
def custody : Custody raw where
  Room n := n < UInt64.size - 1
  Holds := Serves
  new := ⟨rfl, rfl, rfl⟩
  locked h := h.isLocked_eq
  lock {n l line} h hroom := by
    refine ⟨?_, h.draw hroom⟩
    change decide (l.owner = l.next) = _
    cases line with
    | nil => exact decide_eq_true (h.owner_eq_next_iff.2 rfl)
    | cons ticket line => exact decide_eq_false fun e => nomatch h.owner_eq_next_iff.1 e
  tryLock_nil h hroom := ⟨_, _, h.tryLock_nil hroom, h.draw hroom⟩
  tryLock_cons h := h.tryLock_cons
  unlock_last {n l ticket} h :=
    ⟨⟨l.serveNext, true⟩, by simp only [raw, h.unlock_cons]; rfl, h.serveNext⟩
  unlock_next {n l ticket heir line} h :=
    ⟨⟨l.serveNext, true⟩, l.serveNext, by simp only [raw, h.unlock_cons]; rfl, rfl,
      by simp only [raw, h.serveNext.serves_head], h.serveNext⟩
  unlockUnheld {n l call} h hcall := by
    obtain rfl := Option.some.inj hcall
    exact ⟨.nobodyServed, by simp only [h.unlock_nil]; rfl, rfl⟩

end Handoff.TicketLock
