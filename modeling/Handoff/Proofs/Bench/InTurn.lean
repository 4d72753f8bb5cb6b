import Handoff.Proofs.Bench.Outcome
import Handoff.Proofs.Lock.Agreement

/-!
# Workers one after the other

When the program runs a benchmark itself, it runs the workers one after the other
(`Bench.execute`). Each increment finds the lock free and leaves it free, and the counter is the
number of passes drawn of the lock (`Bench.AtRest`), so all workers complete in order and the counter
is the product of the two numbers (`Bench.execute_eq`).

This is not one schedule of the workers access by access, but what it shows is what some schedule
shows (`Bench.exists_shows_execute`): the workers may as well take turns, and whichever way they come
to their end, they come to the same.
-/

namespace Handoff

/-- In every state there is a choice that lets a call go on. -/
theorem Primitive.exists_ofUse {ι : Type} [DecidableEq ι] (p : Primitive)
    (l : (p.code ι).Memory) : ∃ choice, p.OfUse l choice := by
  cases p with
  | ttas => exact ⟨FlagLock.Choice.proceed, nofun⟩
  | ticket => exact ⟨TicketLock.Choice.proceed, trivial⟩
  | mcs =>
    refine ⟨QueueLock.Choice.proceed (QueueLock.heap l).fresh, ?_⟩
    simp [Primitive.OfUse, QueueLock.Choice.place?, Heap.get?_fresh]
  | futex => exact ⟨Mutex.Choice.proceed, trivial⟩

namespace Bench

/-! ### One worker -/

section Work

variable {L : RawLock} {C : Custody L} {n : Nat} {s : L.State × UInt64}

/-- Between two increments the lock is free, and as many passes have been drawn as increments were
made. -/
structure AtRest (C : Custody L) (n : Nat) (s : L.State × UInt64) : Prop where
  free : C.Holds n s.1 []
  counter : s.2.toNat = n

theorem AtRest.increment (h : AtRest C n s) (hroom : C.Room n) (hlt : n + 1 < UInt64.size) :
    ∃ s', increment L s = (.completed, s') ∧ AtRest C (n + 1) s' := by
  obtain ⟨hholds, hline⟩ := C.lock h.free hroom
  obtain ⟨release, hunlock, hfree⟩ := C.unlock_last hline
  have hone : (1 : UInt64).toNat = 1 := rfl
  have hsum : (UInt64.ofNat (n + 1)).toNat = s.2.toNat + (1 : UInt64).toNat := by
    rw [UInt64.toNat_ofNat_of_lt' hlt, h.counter, hone]
  refine ⟨(release.state, UInt64.ofNat (n + 1)), ?_, hfree, UInt64.toNat_ofNat_of_lt' hlt⟩
  have hadd := Word.add?_eq_some_iff.2 hsum
  simp [Bench.increment, hholds, hunlock, hadd]

/-- A worker makes all its increments. -/
theorem AtRest.work {m : Nat} (h : AtRest C n s) (hroom : ∀ k < n + m, C.Room k)
    (hlt : n + m < UInt64.size) :
    ∃ s', work L m s = (.completed, s') ∧ AtRest C (n + m) s' := by
  induction m generalizing n s with
  | zero => exact ⟨s, rfl, h⟩
  | succ m ih =>
    obtain ⟨s₁, hfirst, hrest⟩ := h.increment (hroom n (by omega)) (by omega)
    have hshift : n + 1 + m = n + (m + 1) := by omega
    obtain ⟨s₂, hwork, hdone⟩ := ih hrest (hshift ▸ hroom) (hshift ▸ hlt)
    refine ⟨s₂, ?_, hshift ▸ hdone⟩
    rw [Bench.work, hfirst]
    exact hwork

/-- All workers make all their increments. -/
theorem AtRest.workInTurn {increments workers : Nat} (h : AtRest C n s)
    (hroom : ∀ k < n + workers * increments, C.Room k)
    (hlt : n + workers * increments < UInt64.size) :
    ∃ s', workInTurn L increments workers s = (List.replicate workers .completed, s') ∧
      AtRest C (n + workers * increments) s' := by
  induction workers generalizing n s with
  | zero => exact ⟨s, rfl, by simpa using h⟩
  | succ workers ih =>
    have hshift : n + increments + workers * increments = n + (workers + 1) * increments := by
      rw [Nat.succ_mul]
      omega
    rw [← hshift] at hroom hlt ⊢
    obtain ⟨s₁, hfirst, hrest⟩ := h.work (fun k hk => hroom k (Nat.lt_add_right _ hk)) (by omega)
    obtain ⟨s₂, hothers, hdone⟩ := ih hrest hroom hlt
    refine ⟨s₂, ?_, hdone⟩
    simp [Bench.workInTurn, hfirst, hothers, List.replicate_succ]

end Work

/-! ### The whole benchmark -/

section Execute

variable {p : Primitive} {config : Config} {expected : UInt64}

/-- The workers complete in their order. -/
theorem execute_eq (hvalid : config.validate = .ok expected) :
    execute p config =
      ⟨List.replicate config.threads.toNat .completed, List.range config.threads.toNat,
        expected⟩ := by
  have hproduct := (Config.validate_eq_ok_iff.1 hvalid).2
  have hlt := expected.toNat_lt
  have hnew : AtRest p.custody 0 (p.raw.new, 0) := ⟨p.custody.new, rfl⟩
  have hcount : 0 + config.threads.toNat * config.increments.toNat = expected.toNat := by omega
  have hroom : ∀ k < expected.toNat, p.custody.Room k := fun k hk => p.room fun _ => by
    simp only [UInt64.size]
    omega
  obtain ⟨⟨l, counter⟩, hwork, hdone⟩ := hnew.workInTurn (hcount ▸ hroom) (hcount ▸ hlt)
  have hcounter : counter = expected := UInt64.toNat_inj.1 (hdone.counter.trans hcount)
  have hcompleted : (List.range config.threads.toNat).filter (fun i =>
      (List.replicate config.threads.toNat WorkerEnd.completed)[i]? = some .completed) =
      List.range config.threads.toNat := by
    refine List.filter_eq_self.2 fun i hi => ?_
    simp [List.mem_range.1 hi]
  simp only [execute, hwork, List.length_replicate, hcompleted, hcounter]

/-- What the workers show when they run one after the other, they show when they take turns. -/
theorem exists_shows_execute (hvalid : config.validate = .ok expected) :
    ∃ schedule, (execute p config).Shows
      (Program.run (Program.start (config.workers p)) schedule) := by
  have hfew := card_mul_increments_lt hvalid
  let S := p.promptService (Fin config.threads.toNat)
  have hexists : ∃ schedule, Program.Fair
      (fun (s : (config.workers p).State) m => p.OfUse s.memory.lock m.2)
      (Program.start (config.workers p)) schedule :=
    Program.exists_fair (pos_of_validate hvalid) (fun (s : (config.workers p).State) =>
      (p.exists_ofUse s.memory.lock).imp fun _ h _ => h) _
  obtain ⟨schedule, hfair⟩ := hexists
  rw [← Primitive.promptService_ofUse] at hfair
  obtain ⟨n, hdone⟩ := eventually_completed S hfew hfair
  refine ⟨(List.range n).map schedule, ?_⟩
  have htallied := tallied_run S.toService hfew ((List.range n).map schedule)
  have hcompleted := hdone n (Nat.le_refl n)
  rw [Program.along_eq_run] at hcompleted
  rw [execute_eq hvalid]
  refine ⟨?_, ?_, ?_⟩
  · simp [hcompleted, WorkerPoint.ended?]
  · simp [hcompleted, WorkerPoint.ended?]
  · refine UInt64.toNat_inj.1 ?_
    rw [htallied.counter_of_completed hcompleted, card_mul_increments hvalid]

end Execute

end Bench

end Handoff
