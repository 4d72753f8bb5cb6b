import Mathlib.Data.List.Basic
import Handoff.Futex

/-!
# Who sleeps on a word

A thread sleeps in vain if the word does not hold any more what it expects: were it woken, it would
go on. Only a change of the word that wakes nobody can leave such a thread behind; a wake of every
thread leaves none, and it makes no difference whether the threads are woken all at once or one by
one as often as there are sleepers (`Futex.step_storeWakeEach`). So if every thread is woken after the
last change that woke nobody, those that sleep in the end all expect the word as it is
(`Futex.none_sleeps_in_vain`).

No thread is lost: those that are said to have fallen asleep are said to have been woken or sleep in
the end, unless they were woken by a use that does not tell (`Futex.sleepers_accounted`).
-/

namespace Handoff

namespace FutexStep

/-- Whether a use wakes every thread after it has changed the word, if at all. -/
def wakesAll : FutexStep → Bool
  | .wakeAll | .storeWakeAll _ | .storeWakeEach _ => true
  | _ => false

/-- Whether a use changes the word and wakes nobody. -/
def changesOnly : FutexStep → Bool
  | .store _ => true
  | _ => false

/-- Whether a use wakes threads and does not tell how many. -/
def wakesSilently : FutexStep → Bool
  | .wakeOne | .wakeAll => true
  | _ => false

end FutexStep

/-- What the threads saw that were woken and went on. -/
def FutexAnswer.awake : FutexAnswer → List UInt32
  | .woken words => words
  | _ => []

namespace Futex

variable {f : Futex}

/-! ### Waking -/

/-- Who is woken goes behind the others if the word holds what it expects, and is gone otherwise. -/
theorem wakeOne_cons (f : Futex) (expected : UInt32) (rest : List UInt32) :
    wakeOne { f with sleeping := expected :: rest } =
      { f with sleeping := rest ++ [expected].filter f.blocks } := by
  by_cases hblocks : f.word = expected <;> simp [wakeOne, blocks, hblocks]

/-- As many wakes as there are threads in front of the others pass over these. -/
theorem repeat_wakeOne_of_le {k : Nat} (hk : k ≤ f.sleeping.length) :
    Nat.repeat wakeOne k f =
      { f with sleeping := f.sleeping.drop k ++ (f.sleeping.take k).filter f.blocks } := by
  induction k with
  | zero => simp [Nat.repeat]
  | succ k ih =>
    have hlt : k < f.sleeping.length := hk
    have hdrop : f.sleeping.drop k = f.sleeping[k] :: f.sleeping.drop (k + 1) :=
      List.drop_eq_getElem_cons hlt
    have htake : f.sleeping.take (k + 1) = f.sleeping.take k ++ [f.sleeping[k]] :=
      List.take_succ_eq_append_getElem hlt
    rw [Nat.repeat, ih (Nat.le_of_lt hlt), hdrop, List.cons_append, wakeOne_cons, htake,
      List.filter_append, List.append_assoc]

/-- To wake the threads one by one is to wake them all. -/
theorem repeat_wakeOne (f : Futex) : Nat.repeat wakeOne f.sleeping.length f = f.wakeAll := by
  rw [repeat_wakeOne_of_le (Nat.le_refl _), List.drop_length, List.take_length, List.nil_append,
    wakeAll]

theorem step_storeWakeEach (f : Futex) (value : UInt32) :
    f.step (.storeWakeEach value) = f.step (.storeWakeAll value) := by
  rw [step, step, ← repeat_wakeOne]

theorem length_wakeOne_le (f : Futex) : f.wakeOne.sleeping.length ≤ f.sleeping.length := by
  rw [wakeOne]
  split
  · exact Nat.le_refl _
  · next hsleeping =>
    rw [hsleeping]
    split <;> simp

theorem length_wakeAll_le (f : Futex) : f.wakeAll.sleeping.length ≤ f.sleeping.length :=
  List.length_filter_le ..

/-! ### Runs -/

theorem run_cons (f : Futex) (use : FutexStep) (uses : List FutexStep) :
    f.run (use :: uses) =
      (((f.step use).1, (f.step use).2.2.word) :: ((f.step use).2.2.run uses).1,
        (f.step use).2.1.toList ++ ((f.step use).2.2.run uses).2.1,
        ((f.step use).2.2.run uses).2.2) :=
  rfl

theorem run_append_state (f : Futex) (first second : List FutexStep) :
    (f.run (first ++ second)).2.2 = ((f.run first).2.2.run second).2.2 := by
  induction first generalizing f with
  | nil => rfl
  | cons use first ih =>
    rw [List.cons_append, run_cons, run_cons]
    exact ih _

/-- Whether every thread that sleeps expects the word as it is. -/
def Attentive (f : Futex) : Prop := ∀ expected ∈ f.sleeping, expected = f.word

/-- Whoever sleeps after every thread was woken fell asleep again. -/
theorem attentive_wakeAll (f : Futex) : f.wakeAll.Attentive := by
  intro expected hmem
  have hblocks := (List.mem_filter.1 hmem).2
  exact (of_decide_eq_true hblocks).symm

/-- A use that wakes every thread leaves none asleep in vain. -/
theorem attentive_step_of_wakesAll {use : FutexStep} (h : use.wakesAll = true) :
    (f.step use).2.2.Attentive := by
  cases use with
  | wakeAll => exact attentive_wakeAll f
  | storeWakeAll value => exact attentive_wakeAll _
  | storeWakeEach value =>
    rw [step_storeWakeEach]
    exact attentive_wakeAll _
  | _ => exact nomatch h

namespace Attentive

theorem wakeOne (h : f.Attentive) : f.wakeOne.Attentive := by
  rw [Futex.wakeOne]
  split
  · exact h
  · next first rest hsleeping =>
    rw [Attentive, hsleeping, List.forall_mem_cons] at h
    intro expected hmem
    dsimp only at hmem
    split at hmem
    · rcases List.mem_append.1 hmem with hrest | hfirst
      · exact h.2 expected hrest
      · exact (List.mem_singleton.1 hfirst).trans h.1
    · exact h.2 expected hmem

/-- A thread falls asleep only if the word holds what it expects, and no use but a change that wakes
nobody takes that away. -/
theorem step (h : f.Attentive) {use : FutexStep} (huse : use.changesOnly = false) :
    (f.step use).2.2.Attentive := by
  cases use with
  | store value => exact nomatch huse
  | wakeAll => exact attentive_step_of_wakesAll rfl
  | storeWakeAll value => exact attentive_step_of_wakesAll rfl
  | storeWakeEach value => exact attentive_step_of_wakesAll rfl
  | wakeOne => exact h.wakeOne
  | wait expected => exact h
  | waitTimeout expected span =>
    rw [Futex.step]
    split
    · split <;> exact h
    · exact h
  | spawn expected =>
    rw [Futex.step]
    split
    · next hblocks =>
      intro other hmem
      rcases List.mem_append.1 hmem with hold | hnew
      · exact h other hold
      · exact (List.mem_singleton.1 hnew).trans (of_decide_eq_true hblocks).symm
    · exact h

theorem run (h : f.Attentive) {uses : List FutexStep}
    (huses : ∀ use ∈ uses, use.changesOnly = false) : (f.run uses).2.2.Attentive := by
  induction uses generalizing f with
  | nil => exact h
  | cons use uses ih =>
    obtain ⟨huse, hrest⟩ := List.forall_mem_cons.1 huses
    exact ih (h.step huse) hrest

end Attentive

/-- **No thread sleeps in vain.** If all threads are woken after the last change of the word that woke
nobody, then whoever sleeps in the end expects the word as it is, whatever else was done before and
after. -/
theorem none_sleeps_in_vain (f : Futex) (before after : List FutexStep) {wake : FutexStep}
    (hwake : wake.wakesAll = true) (hafter : ∀ use ∈ after, use.changesOnly = false) :
    (f.run (before ++ wake :: after)).2.2.Attentive := by
  rw [run_append_state, run_cons]
  exact (attentive_step_of_wakesAll hwake).run hafter

/-! ### Accounts -/

/-- The threads that slept before a use and those of which it tells that they fell asleep sleep after
it, or it tells that they went on, or it is a use that wakes silently. -/
theorem accounts_step (f : Futex) (use : FutexStep) :
    ∃ silent, (f.step use).1.awake.length + silent + (f.step use).2.2.sleeping.length =
        f.sleeping.length + [(f.step use).1].count .waiting ∧
      (use.wakesSilently = false → silent = 0) := by
  -- whoever is seen to have gone on is told of
  have hseen : ∀ value, let g := ({ f with word := value } : Futex).wakeAll
      (f.seen g).length + g.sleeping.length = f.sleeping.length := by
    intro value g
    rw [seen, List.length_replicate]
    exact Nat.sub_add_cancel (length_wakeAll_le { f with word := value })
  cases use with
  | wakeOne =>
    have hle := length_wakeOne_le f
    refine ⟨f.sleeping.length - f.wakeOne.sleeping.length, ?_, nofun⟩
    exact (congrArg (· + _) (Nat.zero_add _)).trans (Nat.sub_add_cancel hle)
  | wakeAll =>
    have hle := length_wakeAll_le f
    refine ⟨f.sleeping.length - f.wakeAll.sleeping.length, ?_, nofun⟩
    exact (congrArg (· + _) (Nat.zero_add _)).trans (Nat.sub_add_cancel hle)
  | storeWakeAll value => exact ⟨0, hseen value, fun _ => rfl⟩
  | storeWakeEach value =>
    rw [step_storeWakeEach]
    exact ⟨0, hseen value, fun _ => rfl⟩
  | store value => exact ⟨0, Nat.zero_add _, fun _ => rfl⟩
  | wait expected =>
    refine ⟨0, ?_, fun _ => rfl⟩
    rw [step]
    split <;> exact Nat.zero_add _
  | waitTimeout expected span =>
    refine ⟨0, ?_, fun _ => rfl⟩
    rw [step]
    split
    · split <;> exact Nat.zero_add _
    · exact Nat.zero_add _
  | spawn expected =>
    refine ⟨0, ?_, fun _ => rfl⟩
    rw [step]
    split
    · exact (Nat.zero_add _).trans List.length_append
    · exact Nat.zero_add _

/-- **No sleeper is lost.** The threads that slept before a run and those that are said to have fallen
asleep in it are said to have gone on, or sleep in the end, but for those that were woken by a use
that does not tell. -/
theorem sleepers_accounted (f : Futex) (uses : List FutexStep) :
    let answers := (f.run uses).1.map Prod.fst
    ∃ silent, (answers.flatMap FutexAnswer.awake).length + silent +
          (f.run uses).2.2.sleeping.length =
        f.sleeping.length + answers.count .waiting ∧
      ((∀ use ∈ uses, use.wakesSilently = false) → silent = 0) := by
  induction uses generalizing f with
  | nil => exact ⟨0, by simp [run], fun _ => rfl⟩
  | cons use uses ih =>
    obtain ⟨first, hfirst, hnone⟩ := f.accounts_step use
    obtain ⟨rest, hrest, hnoneRest⟩ := ih (f.step use).2.2
    refine ⟨first + rest, ?_, fun htold => ?_⟩
    · have hcount : ∀ (answer : FutexAnswer) (answers : List FutexAnswer),
          (answer :: answers).count .waiting = [answer].count .waiting + answers.count .waiting := by
        intro answer answers
        rw [← List.count_append, List.singleton_append]
      rw [run_cons, List.map_cons, List.flatMap_cons, List.length_append, hcount]
      dsimp only
      omega
    · obtain ⟨huse, huses⟩ := List.forall_mem_cons.1 htold
      rw [hnone huse, hnoneRest huses]

/-- One of two threads that expected the old value is told to have gone on. -/
example : (run ⟨0, []⟩ [.spawn 0, .spawn 0, .wakeOne, .store 1, .wakeOne, .storeWakeAll 2]).1.map
      Prod.fst =
    [.waiting, .waiting, .done, .done, .done, .woken [2]] := by
  decide

end Futex

end Handoff
