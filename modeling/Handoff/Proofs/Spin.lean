import Mathlib.Algebra.Order.BigOperators.Group.List
import Mathlib.Data.ENat.Lattice
import Handoff.Spin.Account

/-!
# How often a waiter checks and spins

A busy loop does nothing but *laps*: it asks its condition, is told to go on, and spins. A loop that
ends has done a number of laps and then asked once more. How many laps it does depends on the first
answer that ends it (`firstTrue`, infinite if there is none), and, for a loop with a limit, on the
limit: it asks before it looks at the limit, so it does as many laps as the limit allows and still
asks once more before it gives up.

So the spins of every call are known beforehand (`Call.spins`), and the counter of a waiter shows
their sum, as far as a word can (`every_spin_accounted`).
-/

namespace Handoff.SpinWait

/-! ### The first answer that ends a loop -/

/-- The index of the first answer that is true, infinite if there is none. -/
noncomputable def firstTrue (answers : Nat → Bool) : ℕ∞ :=
  ⨅ i, ⨅ _ : answers i = true, (i : ℕ∞)

section FirstTrue

variable {answers : Nat → Bool}

theorem firstTrue_le {i : Nat} (h : answers i = true) : firstTrue answers ≤ i :=
  iInf₂_le i h

theorem eq_false_of_lt_firstTrue {i : Nat} (h : i < firstTrue answers) : answers i = false :=
  Bool.eq_false_iff.2 fun hi => absurd (firstTrue_le hi) (not_le.2 h)

theorem firstTrue_eq {k : Nat} (hbefore : ∀ i < k, answers i = false) (hk : answers k = true) :
    firstTrue answers = k := by
  refine le_antisymm (firstTrue_le hk) (le_iInf₂ fun i hi => Nat.cast_le.2 ?_)
  by_contra hlt
  rw [hbefore i (Nat.not_le.1 hlt)] at hi
  exact nomatch hi

/-- The first answer that is true is one of them, if there is any. -/
theorem exists_firstTrue_eq (h : ∃ i, answers i = true) :
    ∃ k : Nat, firstTrue answers = k ∧ answers k = true := by
  have hk : answers (Nat.find h) = true := Nat.find_spec h
  have hbefore : ∀ i < Nat.find h, answers i = false := fun i hi =>
    Bool.eq_false_iff.2 (Nat.find_min h hi)
  exact ⟨_, firstTrue_eq hbefore hk, hk⟩

theorem firstTrue_ne_top_iff : firstTrue answers ≠ ⊤ ↔ ∃ i, answers i = true := by
  constructor
  · intro hfinite
    by_contra hnone
    rw [not_exists] at hnone
    exact hfinite (by simp [firstTrue, hnone])
  · intro hsome
    obtain ⟨k, hfirst, -⟩ := exists_firstTrue_eq hsome
    exact hfirst ▸ ENat.natCast_ne_top k

end FirstTrue

/-! ### A call with an account is the same call -/

namespace Account

/-- What is left of the limit never gets below zero, and the call ends as it does without an
account. -/
theorem map_outcome_whileBusy? (busy : Nat → Bool) (left : UInt64) {a : Account}
    (h : a.gaveUp = false) :
    (a.whileBusy? busy left).map outcome = some (whileBusyFrom busy a.asked left a.waiter) := by
  generalize hasked : a.asked = asked, hw : a.waiter = w
  fun_induction whileBusyFrom busy asked left w generalizing a with
  | case1 asked w hbusy =>
    subst hasked hw
    rw [whileBusy?_zero hbusy, Option.map_some, outcome_giveUp, asked_ask, waiter_ask]
  | case2 asked left w hbusy hleft ih =>
    subst hasked hw
    rw [whileBusy?_of_busy hbusy hleft]
    exact ih (a := (a.ask busy).spin) h (by rw [asked_spin, asked_ask]) rfl
  | case3 asked left w hclear =>
    subst hasked hw
    rw [whileBusy?_of_clear (Bool.eq_false_iff.2 hclear), Option.map_some, outcome_ask, h]
    rfl

theorem map_outcome_untilDone? (done : Nat → Bool) (patience : Nat) {a : Account}
    (h : a.gaveUp = false) :
    (a.untilDone? done patience).map outcome = untilDoneFrom? done a.asked patience a.waiter := by
  induction patience generalizing a with
  | zero => rfl
  | succ patience ih =>
    rw [untilDoneFrom?]
    cases hdone : done a.asked with
    | true =>
      rw [untilDone?_of_done hdone, Option.map_some, outcome_ask, h]
      rfl
    | false =>
      have hrest := ih (a := (a.ask done).spin) h
      rw [asked_spin, asked_ask] at hrest
      rw [untilDone?_of_not_done hdone, hrest]
      rfl

theorem outcome_of_whileBusy? {busy : Nat → Bool} {limit : UInt64} {w : SpinWait}
    {account : Account} (h : (start w).whileBusy? busy limit = some account) :
    account.outcome = w.whileBusy busy limit := by
  have houtcome := map_outcome_whileBusy? busy limit (a := start w) rfl
  rw [h] at houtcome
  exact Option.some.inj houtcome

theorem untilDone?_eq_some_iff {done : Nat → Bool} {patience : Nat} {w : SpinWait}
    {outcome : Outcome} :
    w.untilDone? done patience = some outcome ↔
      ∃ account, (start w).untilDone? done patience = some account ∧
        account.outcome = outcome := by
  rw [← Option.map_eq_some_iff, map_outcome_untilDone? done patience rfl]
  rfl

theorem outcome_repeat_spin (times : Nat) (w : SpinWait) :
    (Nat.repeat spin times (start w)).outcome = ⟨true, 0, Nat.repeat SpinWait.spin times w⟩ := by
  induction times with
  | zero => rfl
  | succ times ih =>
    rw [Nat.repeat, outcome_spin, ih]
    rfl

end Account

theorem Call.map_outcome_account? (patience : Nat) (call : Call) (w : SpinWait) :
    (call.account? patience w).map Account.outcome = call.run? patience w := by
  cases call with
  | spin times => exact congrArg some (Account.outcome_repeat_spin times w)
  | untilDone done => exact Account.map_outcome_untilDone? done patience rfl
  | whileBusy busy limit => exact Account.map_outcome_whileBusy? busy limit rfl

theorem map_outcome_accounts? (patience : Nat) (calls : List Call) (w : SpinWait) :
    (accounts? patience calls w).map (List.map Account.outcome) = runAll? patience calls w := by
  induction calls generalizing w with
  | nil => rfl
  | cons call calls ih =>
    rw [runAll?, ← call.map_outcome_account?, accounts?]
    cases haccount : call.account? patience w with
    | none => rfl
    | some account =>
      have hrest := ih account.waiter
      change ((accounts? patience calls account.waiter).bind _).map _ =
        (runAll? patience calls account.waiter).bind _
      rw [← hrest]
      cases accounts? patience calls account.waiter with
      | none => rfl
      | some accounts => rfl

theorem runAll?_eq_some_iff {patience : Nat} {calls : List Call} {w : SpinWait}
    {outcomes : List Outcome} :
    runAll? patience calls w = some outcomes ↔
      ∃ accounts, accounts? patience calls w = some accounts ∧
        accounts.map Account.outcome = outcomes := by
  rw [← Option.map_eq_some_iff, map_outcome_accounts?]

/-! ### Laps -/

namespace Account

/-- A number of laps: a condition is asked and the waiter spins. -/
def laps (condition : Nat → Bool) (n : Nat) (a : Account) : Account :=
  Nat.repeat (fun a => (a.ask condition).spin) n a

section Laps

variable (condition : Nat → Bool) (n : Nat) (w : SpinWait)

theorem laps_succ (a : Account) :
    a.laps condition (n + 1) = ((a.laps condition n).ask condition).spin := rfl

@[simp] theorem gaveUp_laps : ((start w).laps condition n).gaveUp = false := by
  induction n with
  | zero => rfl
  | succ n ih => rw [laps_succ, gaveUp_spin, gaveUp_ask, ih]

@[simp] theorem asked_laps : ((start w).laps condition n).asked = n := by
  induction n with
  | zero => rfl
  | succ n ih => rw [laps_succ, asked_spin, asked_ask, ih]

@[simp] theorem spins_laps : ((start w).laps condition n).spins = n := by
  induction n with
  | zero => rfl
  | succ n ih => rw [laps_succ, spins_spin, spins_ask, ih]

/-- The answers come in turn, and each of them is followed by a spin. -/
theorem deeds_laps : ((start w).laps condition n).deeds =
    (List.range n).flatMap fun i => [.ask (condition i), .spin] := by
  induction n with
  | zero => rfl
  | succ n ih =>
    rw [laps_succ, List.range_succ, List.flatMap_append, ← ih]
    simp [spin, ask]

end Laps

/-- The counter of the waiter shows the spins of the call on top of what it showed before. -/
def Counts (a : Account) (w : SpinWait) : Prop :=
  a.waiter.spins.toNat = (w.spins.toNat + a.spins) % UInt64.size

theorem counts_start (w : SpinWait) : (start w).Counts w :=
  (Nat.mod_eq_of_lt w.spins.toNat_lt_size).symm

section Counts

variable {a : Account} {w : SpinWait} (h : a.Counts w)
include h

theorem Counts.ask (condition : Nat → Bool) : (a.ask condition).Counts w := by
  rw [Counts, waiter_ask, spins_ask, h]

theorem Counts.giveUp : a.giveUp.Counts w := h

theorem Counts.spin : a.spin.Counts w := by
  have hspin : a.spin.waiter.spins.toNat = (a.waiter.spins.toNat + 1) % UInt64.size :=
    UInt64.toNat_add _ _
  rw [Counts, spins_spin, hspin, h, Nat.mod_add_mod, Nat.add_assoc]

end Counts

theorem counts_laps (condition : Nat → Bool) (n : Nat) (w : SpinWait) :
    ((start w).laps condition n).Counts w := by
  induction n with
  | zero => exact counts_start w
  | succ n ih => exact (ih.ask condition).spin

theorem counts_repeat_spin (times : Nat) (w : SpinWait) :
    (Nat.repeat spin times (start w)).Counts w := by
  induction times with
  | zero => exact counts_start w
  | succ times ih => exact ih.spin

theorem spins_repeat_spin (times : Nat) (w : SpinWait) :
    (Nat.repeat spin times (start w)).spins = times := by
  induction times with
  | zero => rfl
  | succ times ih => rw [Nat.repeat, spins_spin, ih]

/-- What the account of a loop says that has ended after `n` laps. The condition was asked in each
of them and once more, and gave the answers whose turn it was. -/
structure Reports (a : Account) (condition : Nat → Bool) (n : ℕ∞) (w : SpinWait) : Prop where
  spins : (a.spins : ℕ∞) = n
  asked : (a.asked : ℕ∞) = n + 1
  deeds : a.deeds = (List.range a.spins).flatMap (fun i => [.ask (condition i), .spin]) ++
    [.ask (condition a.spins)]
  counts : a.Counts w

theorem reports_laps (condition : Nat → Bool) (n : Nat) (w : SpinWait) :
    (((start w).laps condition n).ask condition).Reports condition n w where
  spins := by rw [spins_ask, spins_laps]
  asked := by rw [asked_ask, asked_laps, Nat.cast_succ]
  deeds := by rw [spins_ask, spins_laps, ask, asked_laps, deeds_laps]
  counts := (counts_laps condition n w).ask condition

theorem Reports.giveUp {a : Account} {condition : Nat → Bool} {n : ℕ∞} {w : SpinWait}
    (h : a.Reports condition n w) : a.giveUp.Reports condition n w :=
  ⟨h.spins, h.asked, h.deeds, h.counts.giveUp⟩

/-! ### How many laps a loop does -/

section Loops

variable {busy done : Nat → Bool} {w : SpinWait}

/-- A loop with a limit does a lap as long as it is busy and something is left of the limit. -/
theorem whileBusy?_laps {n : Nat} (hbusy : ∀ i < n, busy i = true) {limit rest : UInt64}
    (hrest : limit.toNat = rest.toNat + n) :
    (start w).whileBusy? busy limit = ((start w).laps busy n).whileBusy? busy rest := by
  induction n generalizing rest with
  | zero =>
    obtain rfl : limit = rest := UInt64.toNat_inj.1 hrest
    rfl
  | succ n ih =>
    -- the first laps leave one spin more, which the last lap uses
    have hlt := limit.toNat_lt_size
    have hnext : (rest + 1).toNat = rest.toNat + 1 := Word.toNat_succ (by omega)
    have hne : rest + 1 ≠ 0 := fun hzero => by
      rw [hzero] at hnext
      exact nomatch hnext
    have hnow : busy ((start w).laps busy n).asked = true := by
      rw [asked_laps]
      exact hbusy n (Nat.lt_succ_self n)
    have hlimit : limit.toNat = (rest + 1).toNat + n := by omega
    rw [ih (fun i hi => hbusy i (Nat.lt_succ_of_lt hi)) hlimit, whileBusy?_of_busy hnow hne,
      UInt64.add_sub_cancel, laps_succ]

/-- An answer that is not busy ends the loop, at the last check that the limit allows as well. -/
theorem whileBusy?_eq_of_clear {n : Nat} (hbusy : ∀ i < n, busy i = true)
    (hclear : busy n = false) {limit : UInt64} (hle : n ≤ limit.toNat) :
    (start w).whileBusy? busy limit = some (((start w).laps busy n).ask busy) := by
  have hnow : busy ((start w).laps busy n).asked = false := by
    rw [asked_laps]
    exact hclear
  obtain ⟨rest, hrest⟩ := Word.exists_toNat_add hle
  rw [whileBusy?_laps hbusy hrest, whileBusy?_of_clear hnow]

/-- The loop gives up if it is still busy at the check after the last spin that the limit allows. -/
theorem whileBusy?_eq_giveUp {limit : UInt64} (hbusy : ∀ i ≤ limit.toNat, busy i = true) :
    (start w).whileBusy? busy limit =
      some (((start w).laps busy limit.toNat).ask busy).giveUp := by
  have hnow : busy ((start w).laps busy limit.toNat).asked = true := by
    rw [asked_laps]
    exact hbusy _ (Nat.le_refl _)
  have hnone : limit.toNat = (0 : UInt64).toNat + limit.toNat := (Nat.zero_add _).symm
  rw [whileBusy?_laps (fun i hi => hbusy i (Nat.le_of_lt hi)) hnone, whileBusy?_zero hnow]

theorem exists_whileBusy? (busy : Nat → Bool) (limit : UInt64) (w : SpinWait) :
    let k := firstTrue fun i => !busy i
    ∃ account, (start w).whileBusy? busy limit = some account ∧
      account.Reports busy (min k limit.toNat) w ∧
      (account.outcome.cleared = true ↔ k ≤ limit.toNat) := by
  intro k
  have hbusy : ∀ i : Nat, i < k → busy i = true := fun i hi =>
    (Bool.not_eq_false' _).mp (eq_false_of_lt_firstTrue hi)
  by_cases hle : k ≤ limit.toNat
  · have hfinite : k ≠ ⊤ := ne_top_of_le_ne_top (ENat.natCast_ne_top _) hle
    obtain ⟨n, hk : k = n, hclear⟩ := exists_firstTrue_eq (firstTrue_ne_top_iff.1 hfinite)
    rw [hk] at hle hbusy ⊢
    refine ⟨((start w).laps busy n).ask busy, ?_, ?_, iff_of_true ?_ hle⟩
    · exact whileBusy?_eq_of_clear (fun i hi => hbusy i (Nat.cast_lt.2 hi))
        ((Bool.not_eq_true' _).mp hclear) (Nat.cast_le.1 hle)
    · rw [min_eq_left hle]
      exact reports_laps busy n w
    · rw [outcome_ask, gaveUp_laps]
      rfl
  · have hlt : limit.toNat < k := not_le.1 hle
    refine ⟨(((start w).laps busy limit.toNat).ask busy).giveUp, ?_, ?_, iff_of_false nofun hle⟩
    · exact whileBusy?_eq_giveUp fun i hi => hbusy i ((Nat.cast_le.2 hi).trans_lt hlt)
    · rw [min_eq_right hlt.le]
      exact (reports_laps busy _ w).giveUp

/-- A loop without a limit does a lap as long as it is not done. -/
theorem untilDone?_laps {n : Nat} (hdone : ∀ i < n, done i = false) (patience : Nat) :
    (start w).untilDone? done (patience + n) =
      ((start w).laps done n).untilDone? done patience := by
  induction n generalizing patience with
  | zero => rfl
  | succ n ih =>
    have hnow : done ((start w).laps done n).asked = false := by
      rw [asked_laps]
      exact hdone n (Nat.lt_succ_self n)
    rw [← Nat.succ_add_eq_add_succ, ih (fun i hi => hdone i (Nat.lt_succ_of_lt hi)),
      untilDone?_of_not_done hnow, laps_succ]

/-- An answer that is done ends the loop. -/
theorem untilDone?_eq_of_done {n : Nat} (hbefore : ∀ i < n, done i = false)
    (hdone : done n = true) {patience : Nat} (hlt : n < patience) :
    (start w).untilDone? done patience = some (((start w).laps done n).ask done) := by
  obtain ⟨more, rfl⟩ : ∃ more, patience = more + 1 + n := ⟨patience - n - 1, by omega⟩
  have hnow : done ((start w).laps done n).asked = true := by
    rw [asked_laps]
    exact hdone
  rw [untilDone?_laps hbefore, untilDone?_of_done hnow]

theorem exists_untilDone? {patience : Nat} (h : firstTrue done < patience) (w : SpinWait) :
    ∃ account, (start w).untilDone? done patience = some account ∧
      account.Reports done (firstTrue done) w := by
  obtain ⟨n, hn, hdone⟩ := exists_firstTrue_eq (firstTrue_ne_top_iff.1 h.ne_top)
  have hbefore : ∀ i < n, done i = false := fun i hi =>
    eq_false_of_lt_firstTrue (hn ▸ Nat.cast_lt.2 hi)
  rw [hn] at h ⊢
  exact ⟨_, untilDone?_eq_of_done hbefore hdone (Nat.cast_lt.1 h), reports_laps done n w⟩

/-- The loop goes on before the first answer that is done. -/
theorem untilDone?_eq_none {patience : Nat} (h : patience ≤ firstTrue done) :
    (start w).untilDone? done patience = none := by
  have hdone : ∀ i < patience, done i = false := fun i hi =>
    eq_false_of_lt_firstTrue ((Nat.cast_lt.2 hi).trans_le h)
  have hlaps := untilDone?_laps (w := w) hdone 0
  rwa [Nat.zero_add] at hlaps

theorem reports_of_untilDone? {patience : Nat} {account : Account}
    (h : (start w).untilDone? done patience = some account) :
    account.Reports done (firstTrue done) w := by
  have hlt : firstTrue done < patience := by
    by_contra hle
    rw [untilDone?_eq_none (not_lt.1 hle)] at h
    exact nomatch h
  obtain ⟨account', haccount, hreports⟩ := exists_untilDone? hlt w
  rwa [← Option.some.inj (h.symm.trans haccount)] at hreports

end Loops

end Account

/-- A loop without a limit is seen to end, with enough patience, if some answer is done. -/
theorem exists_untilDone?_iff {done : Nat → Bool} {w : SpinWait} :
    (∃ patience outcome, w.untilDone? done patience = some outcome) ↔ ∃ i, done i = true := by
  constructor
  · rintro ⟨patience, outcome, hrun⟩
    obtain ⟨account, haccount, -⟩ := Account.untilDone?_eq_some_iff.1 hrun
    have hspins := (Account.reports_of_untilDone? haccount).spins
    exact firstTrue_ne_top_iff.1 (hspins ▸ ENat.natCast_ne_top _)
  · intro hsome
    obtain ⟨k, hk, -⟩ := exists_firstTrue_eq hsome
    have hlt : firstTrue done < (k + 1 : Nat) := hk ▸ Nat.cast_lt.2 (Nat.lt_succ_self k)
    obtain ⟨account, haccount, -⟩ := Account.exists_untilDone? hlt w
    exact ⟨k + 1, _, Account.untilDone?_eq_some_iff.2 ⟨account, haccount, rfl⟩⟩

/-! ### Sequences of calls -/

/-- The number of spins of a call, infinite if the call does not end. -/
noncomputable def Call.spins : Call → ℕ∞
  | .spin times => times
  | .untilDone done => firstTrue done
  | .whileBusy busy limit => min (firstTrue fun i => !busy i) limit.toNat

section Calls

variable {patience : Nat}

theorem Call.exists_account? {call : Call} (h : call.spins < patience) (w : SpinWait) :
    ∃ account, call.account? patience w = some account := by
  cases call with
  | spin times => exact ⟨_, rfl⟩
  | untilDone done =>
    obtain ⟨account, haccount, -⟩ := Account.exists_untilDone? h w
    exact ⟨account, haccount⟩
  | whileBusy busy limit =>
    obtain ⟨account, haccount, -⟩ := Account.exists_whileBusy? busy limit w
    exact ⟨account, haccount⟩

theorem Call.spins_of_account? {call : Call} {w : SpinWait} {account : Account}
    (h : call.account? patience w = some account) :
    (account.spins : ℕ∞) = call.spins ∧ account.Counts w := by
  cases call with
  | spin times =>
    rw [← Option.some.inj h]
    exact ⟨congrArg Nat.cast (Account.spins_repeat_spin times w),
      Account.counts_repeat_spin times w⟩
  | untilDone done =>
    have hreports := Account.reports_of_untilDone? h
    exact ⟨hreports.spins, hreports.counts⟩
  | whileBusy busy limit =>
    obtain ⟨account', haccount, hreports, -⟩ := Account.exists_whileBusy? busy limit w
    rw [Option.some.inj (h.symm.trans haccount)]
    exact ⟨hreports.spins, hreports.counts⟩

theorem accounts?_cons_eq_some_iff {call : Call} {calls : List Call} {w : SpinWait}
    {accounts : List Account} :
    accounts? patience (call :: calls) w = some accounts ↔
      ∃ account rest, call.account? patience w = some account ∧
        accounts? patience calls account.waiter = some rest ∧ account :: rest = accounts := by
  simp [accounts?, Option.bind_eq_some_iff]

theorem exists_accounts? {calls : List Call} (h : ∀ call ∈ calls, call.spins < patience)
    (w : SpinWait) : ∃ accounts, accounts? patience calls w = some accounts := by
  induction calls generalizing w with
  | nil => exact ⟨[], rfl⟩
  | cons call calls ih =>
    rw [List.forall_mem_cons] at h
    obtain ⟨account, haccount⟩ := call.exists_account? h.1 w
    obtain ⟨rest, hrest⟩ := ih h.2 account.waiter
    exact ⟨_, accounts?_cons_eq_some_iff.2 ⟨account, rest, haccount, hrest, rfl⟩⟩

/-- After each of the calls, the counter shows the spins so far. -/
theorem spins_of_accounts? {calls : List Call} {w : SpinWait} {accounts : List Account}
    (h : accounts? patience calls w = some accounts) :
    accounts.map (fun a => (a.spins : ℕ∞)) = calls.map Call.spins ∧
      ∀ i account, accounts[i]? = some account → account.waiter.spins.toNat =
        (w.spins.toNat + ((accounts.take (i + 1)).map Account.spins).sum) % UInt64.size := by
  induction calls generalizing w accounts with
  | nil =>
    obtain rfl := Option.some.inj h
    exact ⟨rfl, nofun⟩
  | cons call calls ih =>
    obtain ⟨account, rest, haccount, hrest, rfl⟩ := accounts?_cons_eq_some_iff.1 h
    obtain ⟨hspins, hcounts⟩ := Call.spins_of_account? haccount
    obtain ⟨hspins', hcounts'⟩ := ih hrest
    refine ⟨by rw [List.map_cons, List.map_cons, hspins, hspins'], fun i last hlast => ?_⟩
    cases i with
    | zero =>
      obtain rfl := Option.some.inj hlast
      simpa [Account.Counts] using hcounts
    | succ i =>
      have hlater := hcounts' i last hlast
      rw [hcounts, Nat.mod_add_mod] at hlater
      rw [hlater, List.take_succ_cons, List.map_cons, List.sum_cons, Nat.add_assoc]

/-- Calls are seen to end, with enough patience, if each of them does. -/
theorem exists_runAll?_iff {calls : List Call} {w : SpinWait} :
    (∃ patience outcomes, runAll? patience calls w = some outcomes) ↔
      ∀ call ∈ calls, call.spins ≠ ⊤ := by
  constructor
  · rintro ⟨patience, outcomes, hrun⟩ call hcall
    obtain ⟨accounts, haccounts, -⟩ := runAll?_eq_some_iff.1 hrun
    have hmem := List.mem_map_of_mem (f := Call.spins) hcall
    rw [← (spins_of_accounts? haccounts).1, List.mem_map] at hmem
    obtain ⟨account, -, hspins⟩ := hmem
    exact hspins ▸ ENat.natCast_ne_top _
  · intro hfinite
    -- no call needs more patience than all of them together
    let patience := (calls.map fun call => call.spins.toNat).sum + 1
    have hpatience : ∀ call ∈ calls, call.spins < patience := fun call hcall => by
      have hmem := List.mem_map_of_mem (f := fun call => call.spins.toNat) hcall
      rw [← ENat.natCast_toNat (hfinite call hcall)]
      exact Nat.cast_lt.2 (Nat.lt_succ_of_le (List.le_sum_of_mem hmem))
    obtain ⟨accounts, haccounts⟩ := exists_accounts? hpatience w
    exact ⟨patience, _, runAll?_eq_some_iff.2 ⟨accounts, haccounts, rfl⟩⟩

end Calls

/-- **Every spin is accounted for.** Whatever a waiter has counted before:

* A loop with a limit ends. It spins once for each answer before the first one that is not busy, but
  no more often than the limit allows, and asks once more than it spins; what is left of the limit
  never gets below zero. The condition counts as cleared if that answer comes at the last check that
  the limit allows, or before.
* A loop without a limit ends if some answer is done. It spins once for each answer before the first
  such one, and asks once more.
* Calls made in turn end if each of them does. Each spins as often as it would alone, and after each
  of them the counter shows all the spins so far, modulo the range of a word. -/
theorem every_spin_accounted (w : SpinWait) :
    (∀ (busy : Nat → Bool) (limit : UInt64),
      let k := firstTrue fun i => !busy i
      ∃ account, (Account.start w).whileBusy? busy limit = some account ∧
        account.outcome = w.whileBusy busy limit ∧
        account.Reports busy (min k limit.toNat) w ∧
        ((w.whileBusy busy limit).cleared = true ↔ k ≤ limit.toNat)) ∧
    (∀ done : Nat → Bool,
      ((∃ patience outcome, w.untilDone? done patience = some outcome) ↔
        ∃ i, done i = true) ∧
      ∀ patience outcome, w.untilDone? done patience = some outcome →
        ∃ account, (Account.start w).untilDone? done patience = some account ∧
          account.outcome = outcome ∧ account.Reports done (firstTrue done) w) ∧
    ∀ calls : List Call,
      ((∃ patience outcomes, runAll? patience calls w = some outcomes) ↔
        ∀ call ∈ calls, call.spins ≠ ⊤) ∧
      ∀ patience outcomes, runAll? patience calls w = some outcomes →
        ∃ accounts, accounts? patience calls w = some accounts ∧
          accounts.map Account.outcome = outcomes ∧
          accounts.map (fun a => (a.spins : ℕ∞)) = calls.map Call.spins ∧
          ∀ i outcome, outcomes[i]? = some outcome → outcome.waiter.spins.toNat =
            (w.spins.toNat + ((accounts.take (i + 1)).map Account.spins).sum) % UInt64.size := by
  refine ⟨fun busy limit => ?_,
    fun done => ⟨exists_untilDone?_iff, fun patience outcome hrun => ?_⟩,
    fun calls => ⟨exists_runAll?_iff, fun patience outcomes hrun => ?_⟩⟩
  · obtain ⟨account, haccount, hreports, hcleared⟩ := Account.exists_whileBusy? busy limit w
    have houtcome : account.outcome = w.whileBusy busy limit :=
      Account.outcome_of_whileBusy? haccount
    rw [houtcome] at hcleared
    exact ⟨account, haccount, houtcome, hreports, hcleared⟩
  · obtain ⟨account, haccount, houtcome⟩ := Account.untilDone?_eq_some_iff.1 hrun
    exact ⟨account, haccount, houtcome, Account.reports_of_untilDone? haccount⟩
  · obtain ⟨accounts, haccounts, rfl⟩ := runAll?_eq_some_iff.1 hrun
    obtain ⟨hspins, hcounts⟩ := spins_of_accounts? haccounts
    refine ⟨accounts, haccounts, rfl, hspins, fun i outcome houtcome => ?_⟩
    rw [List.getElem?_map, Option.map_eq_some_iff] at houtcome
    obtain ⟨account, haccount, rfl⟩ := houtcome
    exact hcounts i account haccount

/-- A condition that clears at the last check that the limit allows, one that never clears, and one
that is done after three answers. The counter wraps around in the second call. -/
theorem every_spin_accounted_four :
    let calls : List Call :=
      [.whileBusy (fun i => decide (i < 2)) 2, .whileBusy (fun _ => true) 2,
        .untilDone (fun i => decide (i = 3)), .spin 1]
    let w : SpinWait := ⟨18446744073709551613⟩
    runAll? 4 calls w = some [⟨true, 3, ⟨18446744073709551615⟩⟩, ⟨false, 3, ⟨1⟩⟩,
        ⟨true, 4, ⟨4⟩⟩, ⟨true, 0, ⟨5⟩⟩] ∧
      calls.map Call.spins = [2, 2, 3, 1] := by
  intro calls w
  have hrun : runAll? 4 calls w = some [⟨true, 3, ⟨18446744073709551615⟩⟩, ⟨false, 3, ⟨1⟩⟩,
      ⟨true, 4, ⟨4⟩⟩, ⟨true, 0, ⟨5⟩⟩] := by decide +kernel
  have hkept : (accounts? 4 calls w).map (List.map Account.spins) = some [2, 2, 3, 1] := by
    decide +kernel
  obtain ⟨-, -, hcalls⟩ := every_spin_accounted w
  obtain ⟨accounts, haccounts, -, hspins, -⟩ := (hcalls calls).2 4 _ hrun
  rw [haccounts, Option.map_some, Option.some.injEq] at hkept
  refine ⟨hrun, ?_⟩
  rw [← hspins, ← Function.comp_def Nat.cast Account.spins, ← List.map_map, hkept]
  rfl

end Handoff.SpinWait
