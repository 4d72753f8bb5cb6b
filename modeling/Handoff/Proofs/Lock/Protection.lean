import Mathlib.Data.List.Forall2
import Handoff.Lock.Variable
import Handoff.Proofs.Lock.Agreement

/-!
# A value behind a lock is a variable

The lock of a guarded list is free whenever nobody uses the list. A use takes it as the only one in
the line, so it need not wait, an attempt in its midst fails and leaves no trace, and the guard
gives the lock back whichever way the use is left. This is said of one use of the lock
(`Guarded.hold_of_free`, `Guarded.tryHold_of_free`), then of every step (`Guarded.step_of_free`),
and of scripts (`Guarded.run_of_free`); all that is needed of the lock is its custody.

So which lock protects a list cannot be told, and whether a use panics makes no difference to the
others (`guarded_is_variable`).
-/

namespace Handoff

variable {α : Type}

namespace Guarded

variable {L : RawLock} {C : Custody L} {n : Nat} {l : L.State} {pass : L.Pass} {items : Array α}

/-- A use has had the outcome that it has for a variable, and has left the lock free after so many
passes. -/
structure Matches (C : Custody L) (n : Nat) (outcome : GuardedAnswer α × Guarded L α)
    (expected : GuardedAnswer α × Array α) : Prop where
  answer : outcome.1 = expected.1
  items : outcome.2.items = expected.2
  free : C.Holds n outcome.2.lock []

/-! ### The lock around a use -/

/-- The only one in the line can give up the guard, and leaves the lock free. -/
theorem afterUse_of_last (h : C.Holds n l [pass]) (answer : GuardedAnswer α) :
    Matches C n (afterUse ⟨l, items⟩ pass answer) (answer, items) := by
  obtain ⟨release, hunlock, hfree⟩ := C.unlock_last h
  rw [afterUse, hunlock]
  exact ⟨rfl, rfl, hfree⟩

variable {g : Guarded L α} {use : Guarded L α → GuardedAnswer α × Guarded L α}
  {outcome : GuardedAnswer α × Array α}

/-- A free lock is taken for a use. What the use does to the list is seen, provided that it leaves
the lock alone. -/
theorem hold_of_free (h : C.Holds n g.lock []) (hroom : C.Room n)
    (huse : ∀ l pass, C.Holds (n + 1) l [pass] →
      use ⟨l, g.items⟩ = (outcome.1, ⟨l, outcome.2⟩)) :
    Matches C (n + 1) (g.hold use) outcome := by
  have hlocked : g.locked = false := C.locked h
  obtain ⟨hholds, hnew⟩ := C.lock h hroom
  rw [hold, hlocked, if_neg Bool.false_ne_true]
  simp only [hholds, List.isEmpty_nil, if_true, huse _ _ hnew]
  exact afterUse_of_last hnew outcome.1

/-- An attempt on a free lock does not fail. -/
theorem tryHold_of_free (h : C.Holds n g.lock []) (hroom : C.Room n)
    (huse : ∀ l pass, C.Holds (n + 1) l [pass] →
      use ⟨l, g.items⟩ = (outcome.1, ⟨l, outcome.2⟩))
    (otherwise : GuardedAnswer α) : Matches C (n + 1) (g.tryHold use otherwise) outcome := by
  obtain ⟨pass, l', htry, hnew⟩ := C.tryLock_nil h hroom
  simp only [tryHold, htry, huse _ _ hnew]
  exact afterUse_of_last hnew outcome.1

/-- An attempt on a held lock fails, and changes neither the lock nor the list. -/
theorem tryHold_of_held {line : List L.Pass} (h : C.Holds n g.lock (pass :: line))
    (use : Guarded L α → GuardedAnswer α × Guarded L α) (otherwise : GuardedAnswer α) :
    g.tryHold use otherwise = (otherwise, g) := by
  rw [tryHold, C.tryLock_cons h]

/-! ### Single uses -/

theorem append_of_free (h : C.Holds n g.lock []) (hroom : C.Room n) (value : α) :
    Matches C (n + 1) (g.append value) (.length (g.items.size + 1), g.items.push value) :=
  hold_of_free h hroom fun _ _ _ => rfl

theorem tryAppend_of_free (h : C.Holds n g.lock []) (hroom : C.Room n) (value : α) :
    Matches C (n + 1) (g.tryAppend value)
      (.tried (some (g.items.size + 1)), g.items.push value) :=
  tryHold_of_free h hroom (fun _ _ _ => rfl) _

/-- While the lock is held, an attempt to append comes to nothing. -/
theorem appendTwice_of_free (h : C.Holds n g.lock []) (hroom : C.Room n) (value other : α) :
    Matches C (n + 1) (g.step (.appendTwice value other))
      (.held true false, g.items.push value) := by
  rw [step]
  refine hold_of_free h hroom fun l pass hheld => ?_
  -- in the midst of the use its own pass is the one that stands in the line
  have hlocked : locked (⟨l, g.items.push value⟩ : Guarded L α) = true := C.locked hheld
  have htried := tryHold_of_held (g := ⟨l, g.items.push value⟩) hheld
    (fun g => (.tried (some (g.items.size + 1)), g.pushed other)) (.tried none)
  simp only [pushed, tryAppend] at htried ⊢
  rw [htried, hlocked]
  rfl

/-- Threads that append one value after the other append them all. -/
theorem appendEach_of_free (h : C.Holds n g.lock []) (values : List α)
    (hroom : ∀ k < n + values.length, C.Room k) :
    (g.appendEach values).items = g.items ++ values ∧
      C.Holds (n + values.length) (g.appendEach values).lock [] := by
  induction values generalizing g n with
  | nil => exact ⟨Array.appendList_nil.symm, h⟩
  | cons value values ih =>
    rw [List.length_cons, Nat.add_comm values.length, ← Nat.add_assoc] at hroom ⊢
    obtain ⟨-, hitems, hfree⟩ := append_of_free h (hroom n (by omega)) value
    obtain ⟨hrest, hfree'⟩ := ih hfree hroom
    rw [hitems, ← Array.appendList_cons] at hrest
    exact ⟨hrest, hfree'⟩

/-- Every use that goes through the guard is that of a variable. -/
theorem step_of_free {step : GuardedStep α} (h : C.Holds n g.lock [])
    (hgives : step.givesBack = true) (hroom : ∀ k < n + step.passes, C.Room k) :
    Matches C (n + step.passes) (g.step step) (Variable.step g.items step) := by
  cases step with
  | append value => exact append_of_free h (hroom n (Nat.lt_succ_self n)) value
  | tryAppend value => exact tryAppend_of_free h (hroom n (Nat.lt_succ_self n)) value
  | appendAndPanic value =>
    rw [Guarded.step, Variable.step]
    exact hold_of_free h (hroom n (Nat.lt_succ_self n)) fun _ _ _ => rfl
  | appendTwice value other =>
    exact appendTwice_of_free h (hroom n (Nat.lt_succ_self n)) value other
  | copy =>
    rw [Guarded.step, Variable.step]
    exact hold_of_free h (hroom n (Nat.lt_succ_self n)) fun _ _ _ => rfl
  | replace items => exact ⟨rfl, rfl, h⟩
  | threads labels times =>
    have hlocked : g.locked = false := C.locked h
    have hlength : (labels.flatMap (List.replicate times)).length = labels.length * times := by
      simp
    obtain ⟨hitems, hfree⟩ := appendEach_of_free h (labels.flatMap (List.replicate times))
      (by rwa [hlength])
    rw [hlength] at hfree
    rw [Guarded.step, hlocked, if_neg Bool.false_ne_true]
    exact ⟨congrArg (fun items : Array α => GuardedAnswer.length items.size) hitems, hitems, hfree⟩
  | leak | forceUnlock => cases hgives

/-! ### Scripts -/

/-- A script of such uses goes as it does for a variable, and the lock is free after each. -/
theorem run_of_free {steps : List (GuardedStep α)} (h : C.Holds n g.lock [])
    (hgives : ∀ step ∈ steps, step.givesBack = true)
    (hroom : ∀ k < n + GuardedStep.passesOf steps, C.Room k) :
    (g.run steps).1 = (Variable.run g.items steps).1.map (·, false) ∧
      (g.run steps).2.items = (Variable.run g.items steps).2 ∧
      C.Holds (n + GuardedStep.passesOf steps) (g.run steps).2.lock [] := by
  -- every script starts where the one before has left the lock: free, after so many more passes
  induction steps generalizing g n with
  | nil => exact ⟨rfl, rfl, h⟩
  | cons step steps ih =>
    obtain ⟨hhead, htail⟩ := List.forall_mem_cons.1 hgives
    rw [GuardedStep.passesOf, ← Nat.add_assoc] at hroom ⊢
    obtain ⟨hanswer, hitems, hfree⟩ :=
      step_of_free h hhead fun k hk => hroom k (Nat.lt_of_lt_of_le hk (Nat.le_add_right _ _))
    have hlocked : (g.step step).2.locked = false := C.locked hfree
    obtain ⟨hanswers, hlast, hfree'⟩ := ih hfree htail hroom
    rw [hitems] at hanswers hlast
    exact ⟨List.cons_eq_cons.2 ⟨Prod.ext hanswer hlocked, hanswers⟩, hlast, hfree'⟩

end Guarded

/-! ### Panics -/

namespace GuardedStep

/-- The second use is the first one, or it appends the same and panics. -/
inductive MayPanic : GuardedStep α → GuardedStep α → Prop
  | same (step : GuardedStep α) : MayPanic step step
  | panic (value : α) : MayPanic (.append value) (.appendAndPanic value)

variable {steps steps' : List (GuardedStep α)}

theorem givesBack_of_mayPanic (h : List.Forall₂ MayPanic steps steps')
    (hgives : ∀ step ∈ steps, step.givesBack = true) :
    ∀ step ∈ steps', step.givesBack = true := by
  induction h with
  | nil => exact hgives
  | cons hstep _ ih =>
    obtain ⟨hhead, htail⟩ := List.forall_mem_cons.1 hgives
    refine List.forall_mem_cons.2 ⟨?_, ih htail⟩
    cases hstep with
    | same => exact hhead
    | panic => rfl

theorem passesOf_of_mayPanic (h : List.Forall₂ MayPanic steps steps') :
    passesOf steps' = passesOf steps := by
  induction h with
  | nil => rfl
  | cons hstep _ ih => cases hstep <;> exact congrArg (_ + ·) ih

end GuardedStep

/-- A panic changes the answer of the use that panics, and nothing else. -/
theorem Variable.run_of_mayPanic {steps steps' : List (GuardedStep α)} (items : Array α)
    (h : List.Forall₂ GuardedStep.MayPanic steps steps') :
    (run items steps').2 = (run items steps).2 ∧
      ∀ i : Nat, steps'[i]? = steps[i]? → (run items steps').1[i]? = (run items steps).1[i]? := by
  induction h generalizing items with
  | nil => exact ⟨rfl, fun _ _ => rfl⟩
  | @cons first first' steps steps' hstep _ ih =>
    -- the value is in the list before the panic, so the rest of the two runs is the same
    have hitems : (step items first').2 = (step items first).2 := by cases hstep <;> rfl
    obtain ⟨hlast, hanswers⟩ := ih (step items first).2
    rw [run_cons, run_cons, hitems]
    refine ⟨hlast, fun i hi => ?_⟩
    cases i with
    | zero =>
      obtain rfl : first' = first := Option.some.inj hi
      rfl
    | succ i => exact hanswers i hi

/-! ### The four kinds -/

/-- A script of uses through the guard, on a lock of any kind. -/
theorem Primitive.run_guarded (p : Primitive) (items : Array α) {steps : List (GuardedStep α)}
    (hgives : ∀ step ∈ steps, step.givesBack = true)
    (hfew : p = .ticket → GuardedStep.passesOf steps < UInt64.size - 1) :
    let ran := (Guarded.new items : Guarded p.raw α).run steps
    ran.1 = (Variable.run items steps).1.map (·, false) ∧
      ran.2.items = (Variable.run items steps).2 ∧
      p.custody.Holds (GuardedStep.passesOf steps) ran.2.lock [] := by
  have hroom : ∀ k < 0 + GuardedStep.passesOf steps, p.custody.Room k := fun k hk => by
    rw [Nat.zero_add] at hk
    exact p.room fun hp => Nat.lt_trans hk (hfew hp)
  obtain ⟨hanswers, hitems, hfree⟩ :=
    Guarded.run_of_free (g := (Guarded.new items : Guarded p.raw α)) p.custody.new hgives hroom
  rw [Nat.zero_add] at hfree
  exact ⟨hanswers, hitems, hfree⟩

/-- **A value behind a lock is a variable.** Behind a lock of any kind, a list answers to every use
that goes through the guard as a variable does, and is in the end what the variable is; the lock is
free after each use, and nobody is in the line behind it. So the kinds cannot be told apart, and a
panic changes the answer of the use that panics and nothing else. The tickets drawn must stay below
the last number of a word. -/
theorem guarded_is_variable (p : Primitive) (items : Array α) {steps : List (GuardedStep α)}
    (hgives : ∀ step ∈ steps, step.givesBack = true)
    (hfew : p = .ticket → GuardedStep.passesOf steps < UInt64.size - 1) :
    let ran := (Guarded.new items : Guarded p.raw α).run steps
    let plain := Variable.run items steps
    ran.1 = plain.1.map (·, false) ∧ ran.2.items = plain.2 ∧
      (ran.2.locked = false ∧ p.custody.Holds (GuardedStep.passesOf steps) ran.2.lock []) ∧
      (∀ q : Primitive, (q = .ticket → GuardedStep.passesOf steps < UInt64.size - 1) →
        let other := (Guarded.new items : Guarded q.raw α).run steps
        other.1 = ran.1 ∧ other.2.items = ran.2.items) ∧
      ∀ steps', List.Forall₂ GuardedStep.MayPanic steps steps' →
        let panicking := (Guarded.new items : Guarded p.raw α).run steps'
        panicking.2.items = ran.2.items ∧
          ∀ i : Nat, steps'[i]? = steps[i]? → panicking.1[i]? = ran.1[i]? := by
  intro ran plain
  obtain ⟨hanswers, hitems, hfree⟩ := p.run_guarded items hgives hfew
  refine ⟨hanswers, hitems, ⟨p.custody.locked hfree, hfree⟩, fun q hfew' => ?_,
    fun steps' hpanics => ?_⟩
  · obtain ⟨hanswers', hitems', -⟩ := q.run_guarded items hgives hfew'
    exact ⟨hanswers'.trans hanswers.symm, hitems'.trans hitems.symm⟩
  · obtain ⟨hlast, hothers⟩ := Variable.run_of_mayPanic items hpanics
    obtain ⟨hanswers', hitems', -⟩ :=
      p.run_guarded items (GuardedStep.givesBack_of_mayPanic hpanics hgives)
        (by rwa [GuardedStep.passesOf_of_mayPanic hpanics])
    refine ⟨hitems'.trans (hlast.trans hitems.symm), fun i hi => ?_⟩
    rw [hanswers', hanswers, List.getElem?_map, List.getElem?_map, hothers i hi]

/-- Uses of all sorts, the first of which might as well panic. -/
theorem guarded_is_variable_seven :
    let steps : List (GuardedStep Nat) :=
      [.append 1, .tryAppend 2, .appendAndPanic 3, .appendTwice 4 5, .copy, .replace #[6],
        .threads [7, 8] 2]
    let ran := (Guarded.new #[0] : Guarded TicketLock.raw Nat).run steps
    let other := (Guarded.new #[0] : Guarded QueueLock.raw Nat).run steps
    let panicking := (Guarded.new #[0] : Guarded TicketLock.raw Nat).run
      (.appendAndPanic 1 :: steps.tail)
    (∀ step ∈ steps, step.givesBack = true) ∧
      GuardedStep.passesOf steps < UInt64.size - 1 ∧
      ran.1 =
        [(.length 2, false), (.tried (some 3), false), (.panicked, false),
          (.held true false, false), (.items #[0, 1, 2, 3, 4], false),
          (.items #[0, 1, 2, 3, 4], false), (.length 5, false)] ∧
      ran.2.items = #[6, 7, 7, 8, 8] ∧ other.1 = ran.1 ∧ panicking.2.items = ran.2.items := by
  intro steps ran other panicking
  have hgives : ∀ step ∈ steps, step.givesBack = true := by decide
  have hfew : GuardedStep.passesOf steps < UInt64.size - 1 := by decide
  obtain ⟨hanswers, hitems, -, hothers, hpanics⟩ :=
    guarded_is_variable .ticket #[0] hgives fun _ => hfew
  refine ⟨hgives, hfew, hanswers.trans rfl, hitems.trans rfl, (hothers .mcs nofun).1, ?_⟩
  exact (hpanics _ (.cons (.panic 1) (List.forall₂_same.2 fun step _ => .same step))).1

end Handoff
