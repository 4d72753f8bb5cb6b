import Handoff.Word

/-!
# Spin waiting

A `SpinWait` counts the iterations of the busy loops that share it. A loop asks its condition
again and again; since the answers come from outside, a condition is the stream of the answers
it will give, `answer i` being the `i`-th.

* `SpinWait.whileBusy` spins while the condition is busy, but no more often than a limit. It asks
  before it looks at the limit, so an answer that clears at the last permitted check still counts.
* `SpinWait.untilDone?` spins until the condition is done. That loop need not end, so it is
  observed for a number of checks and answers `none` while it still spins.
-/

namespace Handoff

/-- The number of spins of a waiting thread, modulo the range of a word. -/
structure SpinWait where
  spins : UInt64
deriving Repr, DecidableEq

namespace SpinWait

/-- A waiter that has not spun yet. -/
def new : SpinWait := ⟨0⟩

/-- One iteration of a busy loop. -/
def spin (w : SpinWait) : SpinWait := ⟨w.spins + 1⟩

/-- How a loop ended: whether its condition cleared, how often the condition was asked, and the
waiter afterwards. -/
structure Outcome where
  cleared : Bool
  checks : Nat
  waiter : SpinWait
deriving Repr, DecidableEq

/-- The bounded loop from its `asked`-th check on, with `left` spins to go. -/
def whileBusyFrom (busy : Nat → Bool) (asked : Nat) (left : UInt64) (w : SpinWait) : Outcome :=
  if busy asked then
    if left = 0 then ⟨false, asked + 1, w⟩
    else whileBusyFrom busy (asked + 1) (left - 1) w.spin
  else ⟨true, asked + 1, w⟩
termination_by left.toNat
decreasing_by
  have hpos : left.toNat ≠ 0 := fun h => ‹¬left = 0› (UInt64.toNat_inj.1 h)
  have hle : (1 : UInt64) ≤ left := UInt64.le_iff_toNat_le.2 (Nat.one_le_iff_ne_zero.2 hpos)
  rw [UInt64.toNat_sub_of_le _ _ hle]
  exact Nat.sub_lt (Nat.pos_of_ne_zero hpos) Nat.one_pos

/-- Spins while `busy` holds, but no more than `limit` times. -/
def whileBusy (busy : Nat → Bool) (limit : UInt64) (w : SpinWait) : Outcome :=
  whileBusyFrom busy 0 limit w

theorem whileBusyFrom_of_clear {busy : Nat → Bool} {asked : Nat} (h : busy asked = false)
    (left : UInt64) (w : SpinWait) : whileBusyFrom busy asked left w = ⟨true, asked + 1, w⟩ := by
  rw [whileBusyFrom, h, if_neg Bool.false_ne_true]

theorem whileBusyFrom_zero {busy : Nat → Bool} {asked : Nat} (h : busy asked = true)
    (w : SpinWait) : whileBusyFrom busy asked 0 w = ⟨false, asked + 1, w⟩ := by
  rw [whileBusyFrom, h, if_pos rfl, if_pos rfl]

theorem whileBusyFrom_of_busy {busy : Nat → Bool} {asked : Nat} (h : busy asked = true)
    {left : UInt64} (hleft : left ≠ 0) (w : SpinWait) :
    whileBusyFrom busy asked left w = whileBusyFrom busy (asked + 1) (left - 1) w.spin := by
  rw [whileBusyFrom, h, if_pos rfl, if_neg hleft]

/-- A condition that stays busy for one check more than there are spins to go makes the loop give
up. -/
theorem whileBusyFrom_of_forall {busy : Nat → Bool} {asked : Nat} {left : UInt64}
    (h : ∀ i ≤ left.toNat, busy (asked + i) = true) (w : SpinWait) :
    whileBusyFrom busy asked left w = ⟨false, asked + left.toNat + 1, ⟨w.spins + left⟩⟩ := by
  generalize hn : left.toNat = n at h
  induction n generalizing asked left w with
  | zero =>
    obtain rfl : left = 0 := UInt64.toNat_inj.1 hn
    have hnow : busy asked = true := h 0 (Nat.le_refl _)
    rw [whileBusyFrom_zero hnow, UInt64.add_zero]
  | succ n ih =>
    have hpos : left ≠ 0 := by
      rintro rfl
      exact nomatch hn
    have hleft : (left - 1).toNat = n := Nat.succ.inj ((Word.toNat_pred hpos).trans hn)
    have hbusy : ∀ i ≤ n, busy (asked + 1 + i) = true := fun i hi => by
      rw [Nat.add_assoc, Nat.add_comm 1 i]
      exact h (i + 1) (Nat.succ_le_succ hi)
    have hspins : w.spins + 1 + (left - 1) = w.spins + left := by
      rw [UInt64.add_assoc, UInt64.add_comm 1, UInt64.sub_add_cancel]
    have hnow : busy asked = true := h 0 (Nat.zero_le _)
    rw [whileBusyFrom_of_busy hnow hpos, ih w.spin hleft hbusy, spin, hspins,
      Nat.add_assoc asked 1 n, Nat.add_comm 1 n]

/-- The unbounded loop from its `asked`-th check on, observed for `patience` checks. -/
def untilDoneFrom? (done : Nat → Bool) (asked : Nat) : (patience : Nat) → SpinWait → Option Outcome
  | 0, _ => none
  | patience + 1, w =>
    if done asked then some ⟨true, asked + 1, w⟩
    else untilDoneFrom? done (asked + 1) patience w.spin

/-- Spins until `done` holds: the outcome of the loop if it takes at most `patience` checks. -/
def untilDone? (done : Nat → Bool) (patience : Nat) (w : SpinWait) : Option Outcome :=
  untilDoneFrom? done 0 patience w

/-! ### Sequences of calls -/

/-- A call on a waiter. -/
inductive Call
  /-- Spin a number of times. -/
  | spin (times : Nat)
  /-- Spin until the condition is done. -/
  | untilDone (done : Nat → Bool)
  /-- Spin while the condition is busy, within a limit. -/
  | whileBusy (busy : Nat → Bool) (limit : UInt64)

/-- Carries a call out; `none` if it still spins after `patience` checks. A call that only spins
asks no condition. -/
def Call.run? (patience : Nat) : Call → SpinWait → Option Outcome
  | .spin times, w => some ⟨true, 0, Nat.repeat SpinWait.spin times w⟩
  | .untilDone done, w => w.untilDone? done patience
  | .whileBusy busy limit, w => some (w.whileBusy busy limit)

/-- Carries calls out one after the other, and gives the outcome of each. -/
def runAll? (patience : Nat) : List Call → SpinWait → Option (List Outcome)
  | [], _ => some []
  | call :: calls, w => do
    let outcome ← call.run? patience w
    let rest ← runAll? patience calls outcome.waiter
    return outcome :: rest

end SpinWait

/-- The stream that gives the values of `list` in turn, and `after` from then on. -/
def streamOf (list : Array Bool) (after : Bool) : Nat → Bool :=
  fun i => list.getD i after

end Handoff
