import Mathlib.Data.Fintype.Card
import Handoff.Bench.Run

/-!
# Workers that panic

A benchmark means to report a worker that panicked as an error of its own. The workers are joined in
order, but only up to the first that panicked, and a worker that panicked and was never joined makes
the joining thread panic too. So the error is reported if exactly one worker panicked; if two or more
did, it does not matter which ones or in which order they are joined: the benchmark panics
(`Bench.panic_reported_iff_single`).
-/

namespace Handoff.Bench

@[simp] theorem joinWorkers_nil : joinWorkers [] = .finished () := rfl

/-- A worker that completed is joined, and that is all. -/
@[simp] theorem joinWorkers_completed (ends : List WorkerEnd) :
    joinWorkers (.completed :: ends) = joinWorkers ends := rfl

/-- A worker that panicked is the last one that is joined. -/
theorem joinWorkers_panicked (ends : List WorkerEnd) :
    joinWorkers (.panicked :: ends) =
      if .panicked ∈ ends then .panicked else .failed .workerPanicked := by
  simp [joinWorkers, joinInOrder]

/-- Only the number of workers that panicked matters. -/
theorem joinWorkers_eq (ends : List WorkerEnd) :
    joinWorkers ends =
      if ends.count .panicked = 0 then .finished ()
      else if ends.count .panicked = 1 then .failed .workerPanicked
      else .panicked := by
  induction ends with
  | nil => simp
  | cons e ends ih =>
    cases e with
    | completed => simpa using ih
    | panicked =>
      rw [joinWorkers_panicked, List.count_cons_self]
      by_cases hmem : .panicked ∈ ends
      · have hsome : ends.count .panicked ≠ 0 := fun hzero => List.count_eq_zero.1 hzero hmem
        simp [hmem, hsome]
      · simp [hmem, List.count_eq_zero.2 hmem]

/-- What the benchmark concludes if some worker panicked is what joining them came to. -/
theorem conclude_of_panicked {ends : List WorkerEnd} (h : ends.count .panicked ≠ 0)
    (primitive : Primitive) (expected : UInt64) (completed : List Nat) (counter : UInt64) :
    conclude primitive expected ⟨ends, completed, counter⟩ =
      if ends.count .panicked = 1 then .failed .workerPanicked else .panicked := by
  rw [conclude, joinWorkers_eq, if_neg h]
  split_ifs <;> rfl

/-- The benchmark has no error of a worker to report if no worker panicked. -/
theorem conclude_of_count_eq_zero {ends : List WorkerEnd} (h : ends.count .panicked = 0)
    (primitive : Primitive) (expected : UInt64) (completed : List Nat) (counter : UInt64) :
    conclude primitive expected ⟨ends, completed, counter⟩ =
      if counter = expected then .finished ⟨primitive, counter⟩
      else .failed (.counterMismatch counter expected) := by
  rw [conclude, joinWorkers_eq, if_pos h]

/-- How the workers end of which certain ones panic. -/
def endsOf {threads : Nat} (panicking : Finset (Fin threads)) : List WorkerEnd :=
  (List.finRange threads).map fun i => if i ∈ panicking then .panicked else .completed

theorem count_endsOf {threads : Nat} (panicking : Finset (Fin threads)) :
    (endsOf panicking).count .panicked = panicking.card := by
  have hpanicked : ∀ i : Fin threads,
      ((if i ∈ panicking then WorkerEnd.panicked else .completed) == .panicked) =
        decide (i ∈ panicking) := fun i => by
    split_ifs with h <;> simp [h]
  rw [endsOf, List.count, List.countP_map, List.countP_eq_length_filter,
    ← List.toFinset_card_of_nodup ((List.nodup_finRange threads).filter _)]
  congr 1
  ext i
  simp [hpanicked]

/-- **A panic is reported only if it is the only one.** Whatever the number of workers and whichever
of them panic, they are joined with the outcome that is meant, an error if there is one that
panicked, exactly if no more than one did. Otherwise the joining thread panics. The benchmark as a
whole reports that a worker panicked exactly if one did, and panics if more did. -/
theorem panic_reported_iff_single {threads : Nat} (panicking : Finset (Fin threads)) :
    (joinWorkers (endsOf panicking) =
        (if panicking = ∅ then .finished () else .failed .workerPanicked) ↔
      panicking.card ≤ 1) ∧
    (joinWorkers (endsOf panicking) = .panicked ↔ 2 ≤ panicking.card) ∧
    ∀ primitive expected completed counter,
      let outcome := conclude primitive expected ⟨endsOf panicking, completed, counter⟩
      (outcome = .failed .workerPanicked ↔ panicking.card = 1) ∧
      (outcome = .panicked ↔ 2 ≤ panicking.card) := by
  have hcount := count_endsOf panicking
  rw [joinWorkers_eq, hcount]
  refine ⟨?_, ?_, fun primitive expected completed counter => ?_⟩
  · simp only [← Finset.card_eq_zero]
    split_ifs <;> simp <;> omega
  · split_ifs <;> simp <;> omega
  · intro outcome
    by_cases hzero : panicking.card = 0
    · have houtcome : outcome = if counter = expected then .finished ⟨primitive, counter⟩
          else .failed (.counterMismatch counter expected) :=
        conclude_of_count_eq_zero (hcount.trans hzero) primitive expected completed counter
      rw [houtcome, hzero]
      split_ifs <;> simp
    · have houtcome : outcome =
          if panicking.card = 1 then .failed .workerPanicked else .panicked := by
        rw [← hcount] at hzero ⊢
        exact conclude_of_panicked hzero primitive expected completed counter
      rw [houtcome]
      split_ifs <;> simp <;> omega

/-- Two workers panic. The first one is joined, the second one is not, and nothing is reported. -/
theorem two_panics_not_reported :
    joinWorkers (endsOf (Finset.univ : Finset (Fin 2))) = .panicked ∧
    joinWorkers (endsOf (Finset.univ : Finset (Fin 2))) ≠ .failed .workerPanicked := by
  decide

end Handoff.Bench
