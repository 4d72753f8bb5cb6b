import Handoff.Spin
import Handoff.Word

/-!
# Spinning with an account

The counter of a waiter wraps around, and it does not tell which call spun how often. The *account*
of a call does: it lists all that the call has done, the oldest deed first. A call with an account
is the same call, except that it keeps one, and that it looks before it lowers what is left of a
limit: it has no outcome if that would be below zero.
-/

namespace Handoff.SpinWait

/-- One thing that a call does. -/
inductive Deed
  /-- It asks its condition, which gives an answer. -/
  | ask (answer : Bool)
  | spin
deriving Repr, DecidableEq

/-- Whether a deed is a question. -/
def Deed.isAsk : Deed → Bool
  | .ask _ => true
  | .spin => false

/-- A waiter during a call, what the call has done so far, and whether it gave up. -/
structure Account where
  waiter : SpinWait
  deeds : List Deed
  gaveUp : Bool
deriving Repr, DecidableEq

namespace Account

/-- The account of a call that has done nothing yet. -/
def start (w : SpinWait) : Account := ⟨w, [], false⟩

/-- How often the condition was asked. -/
def asked (a : Account) : Nat := a.deeds.countP Deed.isAsk

/-- How often the waiter spun. -/
def spins (a : Account) : Nat := a.deeds.count .spin

/-- How the call ended, if it has. -/
def outcome (a : Account) : Outcome := ⟨!a.gaveUp, a.asked, a.waiter⟩

/-- Asks a condition. It gives the answer whose turn it is. -/
def ask (condition : Nat → Bool) (a : Account) : Account :=
  { a with deeds := a.deeds ++ [.ask (condition a.asked)] }

/-- One iteration of a busy loop. -/
def spin (a : Account) : Account :=
  { a with waiter := a.waiter.spin, deeds := a.deeds ++ [.spin] }

/-- Gives up. -/
def giveUp (a : Account) : Account := { a with gaveUp := true }

section Deeds

variable (condition : Nat → Bool) (a : Account)

@[simp] theorem waiter_ask : (a.ask condition).waiter = a.waiter := rfl

@[simp] theorem waiter_spin : a.spin.waiter = a.waiter.spin := rfl

@[simp] theorem gaveUp_ask : (a.ask condition).gaveUp = a.gaveUp := rfl

@[simp] theorem gaveUp_spin : a.spin.gaveUp = a.gaveUp := rfl

@[simp] theorem asked_ask : (a.ask condition).asked = a.asked + 1 := by
  simp [asked, ask, Deed.isAsk]

@[simp] theorem asked_spin : a.spin.asked = a.asked := by
  simp [asked, spin, Deed.isAsk]

@[simp] theorem spins_ask : (a.ask condition).spins = a.spins := by
  simp [spins, ask]

@[simp] theorem spins_spin : a.spin.spins = a.spins + 1 := by
  simp [spins, spin]

theorem outcome_ask : (a.ask condition).outcome = ⟨!a.gaveUp, a.asked + 1, a.waiter⟩ := by
  rw [outcome, asked_ask, gaveUp_ask, waiter_ask]

theorem outcome_spin :
    a.spin.outcome = { a.outcome with waiter := a.outcome.waiter.spin } := by
  rw [outcome, asked_spin, gaveUp_spin, waiter_spin]
  rfl

theorem outcome_giveUp : a.giveUp.outcome = ⟨false, a.asked, a.waiter⟩ := rfl

end Deeds

/-! ### Calls -/

/-- Spins while `busy` holds, with `left` spins to go; no outcome if these get below zero. -/
def whileBusy? (busy : Nat → Bool) (left : UInt64) (a : Account) : Option Account :=
  if busy a.asked then
    if left = 0 then some (a.ask busy).giveUp
    else
      match _h : Word.sub? left 1 with
      | none => none
      | some left => whileBusy? busy left (a.ask busy).spin
  else some (a.ask busy)
termination_by left.toNat
decreasing_by exact (Word.sub?_eq_some_iff.1 ‹_›).symm ▸ Nat.lt_succ_self _

/-- Spins until `done` holds; no outcome if it still does not after `patience` checks. -/
def untilDone? (done : Nat → Bool) : (patience : Nat) → Account → Option Account
  | 0, _ => none
  | patience + 1, a =>
    if done a.asked then some (a.ask done) else untilDone? done patience (a.ask done).spin

theorem whileBusy?_of_clear {busy : Nat → Bool} {a : Account} (h : busy a.asked = false)
    (left : UInt64) : a.whileBusy? busy left = some (a.ask busy) := by
  rw [whileBusy?, h, if_neg Bool.false_ne_true]

theorem whileBusy?_zero {busy : Nat → Bool} {a : Account} (h : busy a.asked = true) :
    a.whileBusy? busy 0 = some (a.ask busy).giveUp := by
  rw [whileBusy?, h, if_pos rfl, if_pos rfl]

theorem whileBusy?_of_busy {busy : Nat → Bool} {a : Account} (h : busy a.asked = true)
    {left : UInt64} (hleft : left ≠ 0) :
    a.whileBusy? busy left = (a.ask busy).spin.whileBusy? busy (left - 1) := by
  rw [whileBusy?, h, if_pos rfl, if_neg hleft]
  split
  · next hnone => exact nomatch hnone.symm.trans (Word.sub?_one hleft)
  · next rest hsome => rw [Option.some.inj (hsome.symm.trans (Word.sub?_one hleft))]

theorem untilDone?_of_done {done : Nat → Bool} {a : Account} (h : done a.asked = true)
    (patience : Nat) : a.untilDone? done (patience + 1) = some (a.ask done) :=
  if_pos h

theorem untilDone?_of_not_done {done : Nat → Bool} {a : Account} (h : done a.asked = false)
    (patience : Nat) :
    a.untilDone? done (patience + 1) = (a.ask done).spin.untilDone? done patience := by
  rw [untilDone?, h, if_neg Bool.false_ne_true]

end Account

/-- Carries a call out and keeps an account of it. -/
def Call.account? (patience : Nat) : Call → SpinWait → Option Account
  | .spin times, w => some (Nat.repeat Account.spin times (.start w))
  | .untilDone done, w => (Account.start w).untilDone? done patience
  | .whileBusy busy limit, w => (Account.start w).whileBusy? busy limit

/-- Carries calls out one after the other, and keeps an account of each. -/
def accounts? (patience : Nat) : List Call → SpinWait → Option (List Account)
  | [], _ => some []
  | call :: calls, w => do
    let account ← call.account? patience w
    let rest ← accounts? patience calls account.waiter
    return account :: rest

end Handoff.SpinWait
