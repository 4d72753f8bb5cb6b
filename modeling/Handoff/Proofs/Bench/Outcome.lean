import Mathlib.Data.Fintype.Card
import Handoff.Proofs.Bench.Completion
import Handoff.Proofs.Bench.Joining
import Handoff.Proofs.Threads.Flags
import Handoff.Proofs.Threads.MutexService
import Handoff.Proofs.Threads.QueueService
import Handoff.Proofs.Threads.TicketService

/-!
# The outcome of a benchmark

A benchmark whose configuration is acceptable loses no increment, whichever kind of lock it is for
and however its workers are interleaved: the counter is always the number of increments made, it never
overflows, nobody panics, and when the workers have ended, the benchmark finds the number that it
expects (`Bench.no_increment_lost`). Along every fair schedule the workers do end.

All that is about workers that have been started. The benchmark finds nothing if their handles do not
fit or if the system refuses memory or a thread, but the workers that have been started complete all
the same and say so (`Bench.Launch.Shows.told`).
-/

namespace Handoff

/-! ### The four kinds of lock -/

/-- Whether a choice lets a call go on: no compare-and-swap fails for no reason, and for a new node
there is a place. -/
def Primitive.OfUse {ι : Type} [DecidableEq ι] :
    (p : Primitive) → (p.code ι).Memory → (p.code ι).Choice → Prop
  | .ttas, _, choice => choice ≠ FlagLock.Choice.failSpuriously
  | .mcs, l, choice => (QueueLock.Choice.place? l choice).isSome
  | .ticket, _, _ | .futex, _, _ => True

/-- No kind of lock keeps everybody waiting. -/
def Primitive.promptService (ι : Type) [DecidableEq ι] : (p : Primitive) → (p.code ι).PromptService
  | .ttas => FlagLock.promptService
  | .ticket => TicketLock.promptService
  | .mcs => QueueLock.promptService
  | .futex => Mutex.promptService

theorem Primitive.promptService_ofUse {ι : Type} [DecidableEq ι] (p : Primitive) :
    (p.promptService ι).OfUse = p.OfUse := by
  cases p <;> rfl

namespace Bench

/-! ### Executions -/

/-- The workers of a benchmark for a kind of lock, numbered. -/
abbrev Config.workers (config : Config) (p : Primitive) : Program (Fin config.threads.toNat) :=
  Bench.workers (p.code (Fin config.threads.toNat)) config.increments.toNat

/-- An execution is what the workers did if all have ended: how each one ended, in some order those
that completed, and the counter. -/
structure Execution.Shows {n increments : Nat} {P : LockCode (Fin n)} (x : Execution)
    (s : (Bench.workers P increments).State) : Prop where
  ends : x.ends.map some = (List.finRange n).map fun t => WorkerPoint.ended? (s.point t)
  completed : x.completed.Perm (((List.finRange n).filter fun t =>
    WorkerPoint.ended? (s.point t) = some .completed).map Fin.val)
  counter : x.counter = s.memory.counter

/-- What a system can answer when workers are to be started: those that are started do what they have
done under some schedule by the time when all of them have ended, and fewer are started than were
asked for if a thread is refused. -/
inductive Launch.Shows (p : Primitive) (config : Config) : Launch → Prop
  | complete {x : Execution} (schedule : List (config.workers p).Move)
    (hx : x.Shows (Program.run (Program.start (config.workers p)) schedule)) :
    Shows p config (.complete x)
  | threadRefused {x : Execution} {started : UInt64} {error : String}
    (hfewer : started.toNat < config.threads.toNat)
    (schedule : List (Config.workers ⟨started, config.increments⟩ p).Move)
    (hx : x.Shows (Program.run (Program.start (Config.workers ⟨started, config.increments⟩ p))
      schedule)) : Shows p config (.threadRefused x error)
  | memoryRefused : Shows p config .memoryRefused

/-- The number of workers that are started of those that a configuration asks for. -/
def Launch.started (config : Config) : Launch → Nat
  | .complete x | .threadRefused x _ =>
    if 24 * config.threads.toNat < 2 ^ 63 then x.ends.length else 0
  | .memoryRefused => 0

/-- If all workers completed, the benchmark finds their counter. -/
theorem conclude_of_completed {p : Primitive} {expected : UInt64} {x : Execution}
    (hends : ∀ e ∈ x.ends, e = .completed) (hcounter : x.counter = expected) :
    conclude p expected x = .finished ⟨p, expected⟩ := by
  have hnone : x.ends.count .panicked = 0 :=
    List.count_eq_zero.2 fun hmem => nomatch hends _ hmem
  have hconclude := conclude_of_count_eq_zero hnone p expected x.completed x.counter
  exact hconclude.trans (by rw [if_pos hcounter, hcounter])

/-! ### Workers that have ended -/

section Workers

variable {ι : Type} {P : LockCode ι}

theorem WorkerPoint.eq_of_ended? {w : WorkerPoint P.Point} {e : WorkerEnd} (h : w.ended? = some e)
    (hw : w ≠ .panicked) : w = .completed ∧ e = .completed := by
  cases w with
  | completed => exact ⟨rfl, (Option.some.inj h).symm⟩
  | panicked => exact absurd rfl hw
  | _ => exact nomatch h

variable [DecidableEq ι] {S : P.Service} {increments : Nat}

theorem WorkerPoint.Fits.unbroken {w : WorkerPoint P.Point} {counter : UInt64} {tally : Nat}
    (h : w.Fits S increments counter tally) : w ≠ .panicked ∧ ∀ p, w ≠ .unwinding p := by
  constructor
  · rintro rfl
    exact h.elim
  · rintro p rfl
    exact h.elim

variable [Fintype ι] {m : WorkerMemory P.Memory} {point : ι → WorkerPoint P.Point} {tally : ι → Nat}

/-- When all workers have completed, the counter is what it has to be. -/
theorem Tallied.counter_of_completed (h : Tallied S increments m point tally)
    (hdone : ∀ t, point t = .completed) : m.counter.toNat = Fintype.card ι * increments := by
  rw [h.counter]
  refine Finset.sum_const_nat fun t _ => ?_
  have hfits := h.fits t
  rw [hdone t] at hfits
  exact hfits

/-- What holds of the workers in every state. -/
structure Exact (increments : Nat) (m : WorkerMemory P.Memory) (point : ι → WorkerPoint P.Point)
    (tally : ι → Nat) : Prop where
  /-- The counter is the number of increments made. -/
  counter : m.counter.toNat = ∑ t, tally t
  /-- A worker makes no more increments than it is told to. -/
  tally_le : ∀ t, tally t ≤ increments
  /-- A worker that has completed made as many. -/
  tally_eq : ∀ t, point t = .completed → tally t = increments
  /-- The counter is what a worker has read until that worker writes it, and has room for one more. -/
  writing : ∀ t left p value, point t = .writing left p value →
    value = m.counter ∧ (Word.add? value 1).isSome
  /-- No worker panics. -/
  unbroken : ∀ t, point t ≠ .panicked ∧ ∀ p, point t ≠ .unwinding p

theorem Tallied.exact (h : Tallied S increments m point tally)
    (hfew : Fintype.card ι * increments < UInt64.size) : Exact increments m point tally where
  counter := h.counter
  tally_le := h.tally_le
  tally_eq t ht := by
    have hfits := h.fits t
    rw [ht] at hfits
    exact hfits
  writing t left p value ht := by
    have hfits := h.fits t
    rw [ht] at hfits
    obtain ⟨-, hleft, hsum, rfl⟩ := hfits
    have hlt := h.counter_lt (t := t) (by omega)
    refine ⟨rfl, Option.isSome_iff_ne_none.2 fun hnone => ?_⟩
    exact absurd (Word.add?_eq_none_iff.1 hnone) (Nat.not_le.2 (Nat.lt_of_le_of_lt hlt hfew))
  unbroken t := (h.fits t).unbroken

end Workers

/-! ### The benchmark -/

section Run

variable {p : Primitive} {config : Config} {expected : UInt64}

/-- The number of workers times their increments fits a word. -/
theorem card_mul_increments (hvalid : config.validate = .ok expected) :
    Fintype.card (Fin config.threads.toNat) * config.increments.toNat = expected.toNat := by
  rw [Fintype.card_fin]
  exact (Config.validate_eq_ok_iff.1 hvalid).2.symm

theorem card_mul_increments_lt (hvalid : config.validate = .ok expected) :
    Fintype.card (Fin config.threads.toNat) * config.increments.toNat < UInt64.size := by
  rw [card_mul_increments hvalid]
  exact expected.toNat_lt

/-- The handles fit exactly if they take no more bytes than the greatest signed word. -/
theorem Config.handlesFit_iff : config.handlesFit = true ↔ 24 * config.threads.toNat < 2 ^ 63 :=
  decide_eq_true_iff

/-- Workers that have ended have completed. -/
theorem completed_of_shows {n increments : Nat} {P : LockCode (Fin n)} {S : P.Service}
    {s : (Bench.workers P increments).State} {tally : Fin n → Nat} {x : Execution}
    (h : Tallied S increments s.memory s.point tally) (hx : x.Shows s) (t : Fin n) :
    s.point t = .completed := by
  have hmem : WorkerPoint.ended? (s.point t) ∈ x.ends.map some := by
    rw [hx.ends]
    exact List.mem_map_of_mem (List.mem_finRange t)
  obtain ⟨e, -, he⟩ := List.mem_map.1 hmem
  exact (WorkerPoint.eq_of_ended? he.symm (h.fits t).unbroken.1).1

/-- Each worker says once that it has completed. -/
theorem completed_perm {n increments : Nat} {P : LockCode (Fin n)} {S : P.Service}
    {s : (Bench.workers P increments).State} {tally : Fin n → Nat} {x : Execution}
    (h : Tallied S increments s.memory s.point tally) (hx : x.Shows s) :
    x.completed.Perm (List.range n) := by
  simpa [completed_of_shows h hx, WorkerPoint.ended?] using hx.completed

/-- What the workers have done by the time all have ended is what the benchmark expects. -/
theorem conclude_of_shows {S : (p.code (Fin config.threads.toNat)).Service}
    {s : (config.workers p).State} {tally : Fin config.threads.toNat → Nat} {x : Execution}
    (hvalid : config.validate = .ok expected)
    (h : Tallied S config.increments.toNat s.memory s.point tally) (hx : x.Shows s) :
    conclude p expected x = .finished ⟨p, expected⟩ := by
  have hdone := completed_of_shows h hx
  have hends : ∀ e ∈ x.ends, e = .completed := by
    intro e he
    have hmem := List.mem_map_of_mem (f := some) he
    rw [hx.ends] at hmem
    obtain ⟨t, -, ht⟩ := List.mem_map.1 hmem
    exact (WorkerPoint.eq_of_ended? ht (h.fits t).unbroken.1).2
  have hcounter : x.counter = expected := by
    refine UInt64.toNat_inj.1 ?_
    rw [hx.counter, h.counter_of_completed hdone, card_mul_increments hvalid]
  exact conclude_of_completed hends hcounter

/-- If all workers are started, the benchmark logs what they say, and finds what it expects. -/
theorem run_of_shows {S : (p.code (Fin config.threads.toNat)).Service}
    {s : (config.workers p).State} {tally : Fin config.threads.toNat → Nat} {x : Execution}
    (hvalid : config.validate = .ok expected) (hfit : config.handlesFit = true)
    (h : Tallied S config.increments.toNat s.memory s.point tally) (hx : x.Shows s) :
    run p config (fun _ => .complete x) =
      (startRecord p config :: x.completed.map workerRecord, .finished ⟨p, expected⟩) := by
  simp only [run, hvalid, runWorkers, hfit, if_true, conclude_of_shows hvalid h hx]

/-- The workers that are started are those that have ended. -/
theorem Execution.Shows.length_ends {n increments : Nat} {P : LockCode (Fin n)} {x : Execution}
    {s : (Bench.workers P increments).State} (hx : x.Shows s) : x.ends.length = n := by
  simpa using congrArg List.length hx.ends

/-- A benchmark with an acceptable configuration logs that its workers complete in some order, as many
as are started, and finds what it expects if none is missing. -/
def Launch.Told (p : Primitive) (config : Config) (expected : UInt64) (launch : Launch) : Prop :=
  ∃ order : List Nat, order.Perm (List.range (launch.started config)) ∧
    (launch.started config = config.threads.toNat ∧
      runWorkers p config expected (fun _ => launch) =
        (startRecord p config :: order.map workerRecord, .finished ⟨p, expected⟩) ∨
    launch.started config < config.threads.toNat ∧
      ∃ why, runWorkers p config expected (fun _ => launch) =
          (startRecord p config :: order.map workerRecord, .notStarted why) ∧
        why.exitCode = if 24 * config.threads.toNat < 2 ^ 63 ∧ launch = .memoryRefused then 134
          else 101)

theorem pos_of_validate (hvalid : config.validate = .ok expected) : 0 < config.threads.toNat :=
  Nat.pos_of_ne_zero fun hzero =>
    (Config.validate_eq_ok_iff.1 hvalid).1 (UInt64.toNat_inj.1 hzero)

/-- Without room for their handles no worker is started, whatever the system would have answered. -/
theorem Launch.told_of_not_handlesFit (hvalid : config.validate = .ok expected)
    (hfit : ¬config.handlesFit = true) (launch : Launch) : launch.Told p config expected := by
  have hbytes : ¬24 * config.threads.toNat < 2 ^ 63 := Config.handlesFit_iff.not.1 hfit
  have hnone : launch.started config = 0 := by
    cases launch <;> simp only [started, hbytes, if_false]
  refine ⟨[], by simp [hnone], .inr ⟨hnone ▸ pos_of_validate hvalid, .tooManyHandles, ?_, ?_⟩⟩
  · simp only [runWorkers, hfit]
    rfl
  · rw [if_neg fun h => hbytes h.1]
    rfl

/-- If all workers are started, they all complete. -/
theorem Launch.told_complete {x : Execution} (hvalid : config.validate = .ok expected)
    (hfit : config.handlesFit = true) {schedule : List (config.workers p).Move}
    (hx : x.Shows (Program.run (Program.start (config.workers p)) schedule)) :
    (Launch.complete x).Told p config expected := by
  have htallied := tallied_run (p.promptService (Fin config.threads.toNat)).toService
    (card_mul_increments_lt hvalid) schedule
  have hall : (Launch.complete x).started config = config.threads.toNat := by
    simp only [Launch.started, Config.handlesFit_iff.1 hfit, if_true, hx.length_ends]
  refine ⟨x.completed, ?_, .inl ⟨hall, ?_⟩⟩
  · rw [hall]
    exact completed_perm htallied hx
  · simp only [runWorkers, hfit, if_true, conclude_of_shows hvalid htallied hx]

/-- If a thread is refused, the workers that were started before complete. They are fewer, so their
increments fit the counter all the more. -/
theorem Launch.told_threadRefused {x : Execution} {started : UInt64} (error : String)
    (hvalid : config.validate = .ok expected) (hfit : config.handlesFit = true)
    (hfewer : started.toNat < config.threads.toNat)
    {schedule : List (Config.workers ⟨started, config.increments⟩ p).Move}
    (hx : x.Shows (Program.run (Program.start (Config.workers ⟨started, config.increments⟩ p))
      schedule)) : (Launch.threadRefused x error).Told p config expected := by
  have hfew : Fintype.card (Fin started.toNat) * config.increments.toNat < UInt64.size := by
    refine Nat.lt_of_le_of_lt (Nat.mul_le_mul_right _ ?_) (card_mul_increments_lt hvalid)
    simpa only [Fintype.card_fin] using hfewer.le
  have htallied := tallied_run (p.promptService (Fin started.toNat)).toService hfew schedule
  have hsome : (Launch.threadRefused x error).started config = started.toNat := by
    simp only [Launch.started, Config.handlesFit_iff.1 hfit, if_true, hx.length_ends]
  refine ⟨x.completed, ?_, .inr ⟨hsome ▸ hfewer, .threadRefused error, ?_, ?_⟩⟩
  · rw [hsome]
    exact completed_perm htallied hx
  · simp only [runWorkers, hfit, if_true]
  · simp [StartFailure.exitCode]

/-- If the memory for the handles is refused, no worker is started. -/
theorem Launch.told_memoryRefused (hvalid : config.validate = .ok expected)
    (hfit : config.handlesFit = true) : Launch.memoryRefused.Told p config expected := by
  refine ⟨[], .refl _, .inr ⟨pos_of_validate hvalid, .memoryRefused config.handleBytes, ?_, ?_⟩⟩
  · simp only [runWorkers, hfit, if_true, List.map_nil]
  · rw [if_pos ⟨Config.handlesFit_iff.1 hfit, rfl⟩]
    rfl

/-- Whatever the system answers, the benchmark tells of the workers that are started. -/
theorem Launch.Shows.told {launch : Launch} (h : launch.Shows p config)
    (hvalid : config.validate = .ok expected) : launch.Told p config expected := by
  by_cases hfit : config.handlesFit = true
  case neg => exact told_of_not_handlesFit hvalid hfit launch
  cases h with
  | complete schedule hx => exact told_complete hvalid hfit hx
  | threadRefused hfewer schedule hx => exact told_threadRefused _ hvalid hfit hfewer hx
  | memoryRefused => exact told_memoryRefused hvalid hfit

/-- When all workers have completed, there is an execution to draw the conclusion from. -/
theorem exists_shows {n increments : Nat} {P : LockCode (Fin n)}
    {s : (Bench.workers P increments).State} (hdone : ∀ t, s.point t = .completed) :
    ∃ x : Execution, x.Shows s := by
  refine ⟨⟨(List.finRange n).map fun _ => .completed, _, s.memory.counter⟩, ?_, .refl _, rfl⟩
  rw [List.map_map]
  exact List.map_congr_left fun t _ => (congrArg WorkerPoint.ended? (hdone t)).symm

/-- A configuration that is not acceptable starts no worker, and its error is that of the benchmark.
With an acceptable one, for each kind of lock and whatever the schedule, the counter is the number
of increments made and never overflows, each worker that completes has made exactly as many
increments as it is told to, nobody panics, and when all workers have ended, the benchmark finds the
product of the two numbers. Along every fair schedule all workers complete. For the benchmark to have
workers at all, their handles must fit. -/
theorem no_increment_lost (p : Primitive) (config : Config) :
    (∀ error, config.validate = .error error →
      ∀ launch, run p config launch = ([], .failed error)) ∧
    ∀ expected, config.validate = .ok expected →
      let start := Program.start (config.workers p)
      expected.toNat = config.threads.toNat * config.increments.toNat ∧
      (∀ schedule,
        let s := Program.run start schedule
        Exact config.increments.toNat s.memory s.point (tallies start schedule) ∧
        s.memory.counter ≤ expected ∧
        ∀ x : Execution, x.Shows s →
          conclude p expected x = .finished ⟨p, expected⟩ ∧
          (config.handlesFit = true → run p config (fun _ => .complete x) =
            (startRecord p config :: x.completed.map workerRecord, .finished ⟨p, expected⟩))) ∧
      ∀ schedule : Nat → (config.workers p).Move,
        Program.Fair (fun (s : (config.workers p).State) m => p.OfUse s.memory.lock m.2) start
          schedule →
        ∃ n, ∀ k, n ≤ k →
          let s := Program.along start schedule k
          (∀ t, s.point t = .completed) ∧
          ∃ x : Execution, x.Shows s ∧ conclude p expected x = .finished ⟨p, expected⟩ ∧
            (config.handlesFit = true →
              (run p config fun _ => .complete x).2 = .finished ⟨p, expected⟩) := by
  constructor
  · intro error hinvalid launch
    simp only [run, hinvalid]
  intro expected hvalid start
  have hfew := card_mul_increments_lt hvalid
  let S := p.promptService (Fin config.threads.toNat)
  have htallied := tallied_run S.toService hfew
  refine ⟨(Config.validate_eq_ok_iff.1 hvalid).2, fun schedule => ?_, fun schedule hfair => ?_⟩
  · have h := htallied schedule
    refine ⟨h.exact hfew, ?_, fun x hx =>
      ⟨conclude_of_shows hvalid h hx, fun hfit => run_of_shows hvalid hfit h hx⟩⟩
    rw [UInt64.le_iff_toNat_le, ← card_mul_increments hvalid]
    exact h.counter_le
  · rw [← Primitive.promptService_ofUse] at hfair
    obtain ⟨n, hdone⟩ := eventually_completed S hfew hfair
    refine ⟨n, fun k hk => ⟨hdone k hk, ?_⟩⟩
    obtain ⟨x, hx⟩ := exists_shows (hdone k hk)
    have h := htallied ((List.range k).map schedule)
    rw [← Program.along_eq_run] at h
    exact ⟨x, hx, conclude_of_shows hvalid h hx, fun hfit =>
      congrArg Prod.snd (run_of_shows hvalid hfit h hx)⟩

/-- Two workers make one increment each. Both draw their tickets before one of them enters, and the
second one is served first; or else they move in turn without end. -/
theorem no_increment_lost_two :
    (∀ launch, run .ticket ⟨0, 1⟩ launch = ([], .failed .zeroThreads)) ∧
    run .ticket ⟨2, 1⟩ (fun _ => .complete ⟨[.completed, .completed], [1, 0], 2⟩) =
      ([startRecord .ticket ⟨2, 1⟩, workerRecord 1, workerRecord 0], .finished ⟨.ticket, 2⟩) ∧
    ∃ n, ∀ k, n ≤ k →
      let s := Program.along (Program.start (Config.workers ⟨2, 1⟩ .ticket))
        (fun i => (⟨i % 2, Nat.mod_lt i Nat.two_pos⟩, TicketLock.Choice.proceed)) k
      (∀ t, s.point t = .completed) ∧
      ∃ x : Execution, x.Shows s ∧
        (run .ticket ⟨2, 1⟩ fun _ => .complete x).2 = .finished ⟨.ticket, 2⟩ := by
  obtain ⟨-, hrun, hfair⟩ := (no_increment_lost .ticket ⟨2, 1⟩).2 2 rfl
  have hfit : Config.handlesFit ⟨2, 1⟩ = true := rfl
  let threads : List (Fin 2) := [1, 0, 0] ++ List.replicate 6 1 ++ List.replicate 6 0
  have hturn : ∀ (t : Fin 2) (n : Nat), (2 * n + t.val) % 2 = t.val := fun t n => by
    have ht : t.val < 2 := t.isLt
    omega
  refine ⟨(no_increment_lost .ticket ⟨0, 1⟩).1 .zeroThreads rfl, ?_, ?_⟩
  · exact ((hrun (threads.map fun t => (t, TicketLock.Choice.proceed))).2.2 _
      ⟨by decide +kernel, by decide +kernel, by decide +kernel⟩).2 hfit
  · obtain ⟨n, hdone⟩ := hfair
      (fun i => (⟨i % 2, Nat.mod_lt i Nat.two_pos⟩, TicketLock.Choice.proceed))
      ⟨fun t n => ⟨2 * n + t.val, by omega, Fin.ext (hturn t n)⟩, 0, fun _ _ => trivial⟩
    refine ⟨n, fun k hk => ?_⟩
    obtain ⟨hcompleted, x, hx, -, hrun⟩ := hdone k hk
    exact ⟨hcompleted, x, hx, hrun hfit⟩

end Run

end Bench

end Handoff
