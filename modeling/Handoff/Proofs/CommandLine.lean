import Handoff.Cli
import Handoff.Proofs.Bench.Arguments
import Handoff.Proofs.Bench.InTurn
import Handoff.Proofs.Text.Quoted

/-!
# What the command line shows

What the program shows depends on its arguments, on the log filter, on how many workers can be
started, and on the workers in as far as they complete in some order. If the arguments are not
accepted, it shows the error and nothing else, and no filter holds the error back. If they are and
all workers can be started, nothing can go wrong any more, however the workers are scheduled: the
later checks of the configuration succeed, no worker panics, and the counter is the expected one. So
the program shows what its filter lets through of a `Cli.transcript`: that it starts, that each
worker completed, and the counter.

That arguments are accepted does not say that the workers can be started. There are accepted numbers
of threads whose handles no memory can hold (`Cli.accepted_but_not_started`), and the system may
refuse memory or a thread. The program then ends with neither a result nor an error of its own, after
the lines of the workers that were started. `Cli.Tells` puts all that together, and
`Cli.command_line_tells_outcome` says that it is so.

The workers that are started do what they do under some schedule (`Cli.Genuine`). Traces of waiting
threads, which depend on the schedule, are not part of what is shown.
-/

namespace Handoff

/-! ### Filters -/

/-- The verbosity at which records of a level come in. -/
def Level.threshold : Level → Nat
  | .error => 1
  | .warn => 2
  | .info => 3
  | .debug => 4
  | .trace => 5

/-- How verbose a filter is, from nothing at all to everything. -/
def LogFilter.verbosity : LogFilter → Nat
  | none => 0
  | some least => least.threshold

theorem LogFilter.allows_iff {filter : LogFilter} {level : Level} :
    filter.allows level = true ↔ level.threshold ≤ filter.verbosity := by
  cases filter with
  | none => cases level <;> decide
  | some least => cases least <;> cases level <;> decide

namespace Cli

/-- The texts that a filter lets through: those that come in at its verbosity. -/
def visible (filter : LogFilter) (texts : List (Level × String)) : List String :=
  (texts.filter fun text => text.1.threshold ≤ filter.verbosity).map Prod.snd

theorem visible_append (filter : LogFilter) (first second : List (Level × String)) :
    visible filter (first ++ second) = visible filter first ++ visible filter second := by
  simp [visible]

/-- A filter lets through all the texts of one level or none. -/
theorem visible_map (filter : LogFilter) (level : Level) {α : Type} (text : α → String)
    (l : List α) :
    visible filter (l.map fun a => (level, text a)) =
      if level.threshold ≤ filter.verbosity then l.map text else [] := by
  by_cases h : level.threshold ≤ filter.verbosity <;>
    simp [visible, List.filter_map, Function.comp_def, h]

/-- A less verbose filter leaves out some of the texts, and no others come in. -/
theorem visible_sublist {filter filter' : LogFilter} (h : filter.verbosity ≤ filter'.verbosity)
    (texts : List (Level × String)) :
    (visible filter texts).Sublist (visible filter' texts) := by
  refine (List.monotone_filter_right texts fun text htext => ?_).map Prod.snd
  rw [decide_eq_true_eq] at htext ⊢
  exact htext.trans h

/-- The lines of records are the texts that the filter lets through. -/
theorem lines_eq_visible (filter : LogFilter) (records : List LogRecord) :
    LogRecord.lines filter records = visible filter (records.map fun r => (r.level, r.line)) := by
  have hallows : ∀ level, filter.allows level = decide (level.threshold ≤ filter.verbosity) :=
    fun level => Bool.eq_iff_iff.2 (LogFilter.allows_iff.trans decide_eq_true_iff.symm)
  simp [LogRecord.lines, visible, List.filter_map, Function.comp_def, hallows]

/-! ### Transcripts -/

/-- The line of a worker that completed. -/
def workerLine (worker : Nat) : String :=
  "[DEBUG locks_n_rings::bench] " ++ ("thread " ++ toString worker ++ " completed")

/-- What a benchmark says until its workers are done, with the severity of each line: the kind of
lock and the two numbers, and the workers in the order in which they completed. -/
def beginning (p : Primitive) (config : Bench.Config) (order : List Nat) :
    List (Level × String) :=
  [(.info, "[INFO  locks_n_rings::bench] " ++ ("starting " ++ p.name ++ " benchmark: " ++
    toString config.threads.toNat ++ " threads x " ++ toString config.increments.toNat ++
    " increments"))] ++
  order.map fun worker => (.debug, workerLine worker)

/-- All that a benchmark says that goes well: its beginning, and the counter, which is the product
of the two numbers as expected. -/
def transcript (p : Primitive) (config : Bench.Config) (order : List Nat) (elapsed : String) :
    List (Level × String) :=
  let product := toString (config.threads.toNat * config.increments.toNat)
  beginning p config order ++
  [(.info, "[INFO  locks_n_rings] " ++ (p.name ++ " finished in " ++ elapsed ++ ", counter = " ++
    product ++ " (expected " ++ product ++ ")"))]

/-- A line is a head, which is known from the level and from where the record comes, and the
message. -/
theorem line_eq {level : Level} {target message head : String}
    (h : "[" ++ level.name ++ String.ofList (List.replicate (5 - level.name.length) ' ') ++ " " ++
      target ++ "] " = head) :
    (LogRecord.mk level target message).line = head ++ message := by
  rw [← h]
  rfl

theorem line_startRecord (p : Primitive) (config : Bench.Config) :
    (Bench.startRecord p config).line = "[INFO  locks_n_rings::bench] " ++
      ("starting " ++ p.name ++ " benchmark: " ++ toString config.threads.toNat ++
        " threads x " ++ toString config.increments.toNat ++ " increments") :=
  line_eq (by decide +kernel)

theorem line_workerRecord (worker : Nat) : (Bench.workerRecord worker).line = workerLine worker :=
  line_eq (by decide +kernel)

theorem line_resultRecord (report : Bench.Report) (expected : UInt64) (elapsed : String) :
    (resultRecord report expected elapsed).line = "[INFO  locks_n_rings] " ++
      (report.primitive.name ++ " finished in " ++ elapsed ++ ", counter = " ++
        toString report.counter.toNat ++ " (expected " ++ toString expected.toNat ++ ")") :=
  line_eq (by decide +kernel)

/-- The records of a benchmark are written as its beginning says. -/
theorem lines_eq_beginning (filter : LogFilter) (p : Primitive) (config : Bench.Config)
    (order : List Nat) :
    LogRecord.lines filter (Bench.startRecord p config :: order.map Bench.workerRecord) =
      visible filter (beginning p config order) := by
  rw [lines_eq_visible, beginning]
  simp only [List.map_cons, List.map_map, Function.comp_def, line_startRecord, line_workerRecord]
  rfl

/-- The records of a benchmark that goes well are written as its transcript says. -/
theorem lines_eq_transcript {p : Primitive} {config : Bench.Config} {expected : UInt64}
    (hvalid : config.validate = .ok expected) (filter : LogFilter) (order : List Nat)
    (elapsed : String) :
    LogRecord.lines filter (Bench.startRecord p config :: order.map Bench.workerRecord ++
        [resultRecord ⟨p, expected⟩ expected elapsed]) =
      visible filter (transcript p config order elapsed) := by
  have hlines : ∀ first second : List LogRecord, LogRecord.lines filter (first ++ second) =
      LogRecord.lines filter first ++ LogRecord.lines filter second := by
    simp [LogRecord.lines]
  rw [hlines, lines_eq_beginning, lines_eq_visible, transcript, visible_append,
    ← (Bench.Config.validate_eq_ok_iff.1 hvalid).2]
  simp only [List.map_cons, List.map_nil, line_resultRecord]
  rfl

/-- Two outputs that differ in the order of the lines of the workers and in nothing else. -/
def SameUpToWorkers (output output' : List String) : Prop :=
  ∃ (before after : List String) (order order' : List Nat), order.Perm order' ∧
    output = before ++ order.map workerLine ++ after ∧
    output' = before ++ order'.map workerLine ++ after

theorem SameUpToWorkers.refl (output : List String) : SameUpToWorkers output output :=
  ⟨output, [], [], [], .refl _, by simp, by simp⟩

/-- Workers in another order change a beginning in nothing else, whatever follows it. -/
theorem sameUpToWorkers_beginning {order order' : List Nat} (h : order.Perm order')
    (filter : LogFilter) (p : Primitive) (config : Bench.Config) (last : List (Level × String)) :
    SameUpToWorkers (visible filter (beginning p config order ++ last))
      (visible filter (beginning p config order' ++ last)) := by
  simp only [beginning, visible_append, visible_map]
  split
  · exact ⟨_, _, order, order', h, rfl, rfl⟩
  · exact .refl _

/-! ### Runs of the program -/

/-- The system answers to the start of the workers that the arguments stand for as it can. -/
def Genuine (args : List String) (launch : Primitive → Bench.Config → Bench.Launch) : Prop :=
  ∀ p config, Bench.parseArgs args = .ok (p, config) → (launch p config).Shows p config

/-- The arguments are accepted, and all the workers that they stand for are started. -/
def AllStarted (args : List String) (launch : Primitive → Bench.Config → Bench.Launch) : Prop :=
  ∃ p config, Bench.parseArgs args = .ok (p, config) ∧
    (launch p config).started config = config.threads.toNat

/-- What a run of the program with the given arguments tells. -/
structure Tells (args : List String) (launch : Primitive → Bench.Config → Bench.Launch)
    (elapsed : String) : Prop where
  /-- All goes well if the arguments are accepted and all workers are started. -/
  exitCode_eq_zero_iff : ∀ filter,
    (run args filter launch elapsed).exitCode = 0 ↔ AllStarted args launch
  /-- An error is reported if the arguments are not accepted. -/
  exitCode_eq_one_iff : ∀ filter, (run args filter launch elapsed).exitCode = 1 ↔
    ∃ error, Bench.parseArgs args = .error error
  /-- The error is on one line, and no filter holds it back. -/
  error : ∀ error, Bench.parseArgs args = .error error →
    ∃ text, error.Written text ∧ Text.OneLine text ∧
      ∀ filter, (run args filter launch elapsed).stderr = ["Error: " ++ text]
  /-- A benchmark that goes well tells so, and each of its workers does. -/
  started : AllStarted args launch → ∀ p config, Bench.parseArgs args = .ok (p, config) →
    ∃ order, order.Perm (List.range config.threads.toNat) ∧ ∀ filter,
      (run args filter launch elapsed).stderr = visible filter (transcript p config order elapsed)
  /-- If some worker cannot be started, the program is at its end when the others have completed. -/
  cut : ¬AllStarted args launch → ∀ p config, Bench.parseArgs args = .ok (p, config) →
    (launch p config).started config < config.threads.toNat ∧
    ∃ order, order.Perm (List.range ((launch p config).started config)) ∧ ∀ filter,
      run args filter launch elapsed =
        ⟨if 24 * config.threads.toNat < 2 ^ 63 ∧ launch p config = .memoryRefused then 134 else 101,
          visible filter (beginning p config order)⟩
  /-- Of two runs that get equally far the less verbose one shows what the other shows with some
  lines left out, but for the order of the workers. -/
  less : ∀ launch', Genuine args launch' →
    (∀ p config, Bench.parseArgs args = .ok (p, config) →
      (launch p config).started config = (launch' p config).started config) →
    ∀ filter filter' : LogFilter, filter.verbosity ≤ filter'.verbosity →
      ∃ shown, SameUpToWorkers (run args filter' launch' elapsed).stderr shown ∧
        (run args filter launch elapsed).stderr.Sublist shown

section Run

variable {args : List String} {launch : Primitive → Bench.Config → Bench.Launch}
  {p : Primitive} {config : Bench.Config} {error : Bench.BenchError}

/-- One way in which the workers may have come to their end is one after the other. -/
theorem genuine_launchInTurn (args : List String) : Genuine args Bench.launchInTurn := by
  intro p config hargs
  obtain ⟨expected, hvalid⟩ := Bench.validate_of_parseArgs hargs
  obtain ⟨schedule, hshows⟩ := Bench.exists_shows_execute hvalid
  exact .complete schedule hshows

theorem run_of_error (hargs : Bench.parseArgs args = .error error) (filter : LogFilter)
    (launch : Primitive → Bench.Config → Bench.Launch) (elapsed : String) :
    run args filter launch elapsed = ⟨1, ["Error: " ++ error.debug]⟩ := by
  rw [run, hargs]
  rfl

/-- The workers of an accepted benchmark that are started complete in some order, and the program
shows that, and the counter if none is missing. -/
theorem run_of_ok (hlaunch : (launch p config).Shows p config)
    (hargs : Bench.parseArgs args = .ok (p, config)) :
    let started := (launch p config).started config
    ∃ order, order.Perm (List.range started) ∧
      (started = config.threads.toNat ∧ (∀ filter elapsed, run args filter launch elapsed =
        ⟨0, visible filter (transcript p config order elapsed)⟩) ∨
      started < config.threads.toNat ∧ (∀ filter elapsed, run args filter launch elapsed =
        ⟨if 24 * config.threads.toNat < 2 ^ 63 ∧ launch p config = .memoryRefused then 134 else 101,
          visible filter (beginning p config order)⟩)) := by
  obtain ⟨expected, hvalid⟩ := Bench.validate_of_parseArgs hargs
  obtain ⟨order, horder, hrun⟩ := hlaunch.told hvalid
  refine ⟨order, horder, hrun.imp ?_ ?_⟩
  · rintro ⟨hall, hrun⟩
    refine ⟨hall, fun filter elapsed => ?_⟩
    simp only [run, Bench.run, hargs, hvalid, hrun, lines_eq_transcript hvalid]
  · rintro ⟨hfewer, why, hrun, hwhy⟩
    refine ⟨hfewer, fun filter elapsed => ?_⟩
    simp only [run, Bench.run, hargs, hvalid, hrun, hwhy, lines_eq_beginning]

theorem exitCode_of_ok (hlaunch : (launch p config).Shows p config)
    (hargs : Bench.parseArgs args = .ok (p, config)) (filter : LogFilter) (elapsed : String) :
    (run args filter launch elapsed).exitCode =
      if (launch p config).started config = config.threads.toNat then 0
      else if 24 * config.threads.toNat < 2 ^ 63 ∧ launch p config = .memoryRefused then 134
      else 101 := by
  obtain ⟨order, -, ⟨hall, hrun⟩ | ⟨hfewer, hrun⟩⟩ := run_of_ok hlaunch hargs
  · rw [hrun, if_pos hall]
  · rw [hrun, if_neg (Nat.ne_of_lt hfewer)]

theorem allStarted_iff (hargs : Bench.parseArgs args = .ok (p, config)) :
    AllStarted args launch ↔ (launch p config).started config = config.threads.toNat := by
  simp [AllStarted, hargs]

theorem not_allStarted_of_error (hargs : Bench.parseArgs args = .error error) :
    ¬AllStarted args launch := by
  simp [AllStarted, hargs]

/-- Two genuine runs in which equally many workers are started show the same but for the order of
the workers. -/
theorem stderr_sublist {launch' : Primitive → Bench.Config → Bench.Launch}
    (hlaunch : (launch p config).Shows p config) (hlaunch' : (launch' p config).Shows p config)
    (hargs : Bench.parseArgs args = .ok (p, config))
    (hsame : (launch p config).started config = (launch' p config).started config)
    {filter filter' : LogFilter} (hle : filter.verbosity ≤ filter'.verbosity) (elapsed : String) :
    ∃ shown, SameUpToWorkers (run args filter' launch' elapsed).stderr shown ∧
      (run args filter launch elapsed).stderr.Sublist shown := by
  obtain ⟨order, horder, hrun⟩ := run_of_ok hlaunch hargs
  obtain ⟨order', horder', hrun'⟩ := run_of_ok hlaunch' hargs
  rw [← hsame] at horder' hrun'
  have hperm : order'.Perm order := horder'.trans horder.symm
  rcases hrun with ⟨hall, hrun⟩ | ⟨hfewer, hrun⟩
  · rcases hrun' with ⟨-, hrun'⟩ | ⟨hfewer, -⟩
    · rw [hrun, hrun']
      exact ⟨_, sameUpToWorkers_beginning hperm filter' p config _, visible_sublist hle _⟩
    · omega
  · rcases hrun' with ⟨hall, -⟩ | ⟨-, hrun'⟩
    · omega
    · rw [hrun, hrun']
      refine ⟨_, ?_, visible_sublist hle _⟩
      simpa using sameUpToWorkers_beginning hperm filter' p config []

/-- A run in which the system answers as it can tells what it has to. -/
theorem tells_of_genuine (hgenuine : Genuine args launch) (elapsed : String) :
    Tells args launch elapsed where
  exitCode_eq_zero_iff filter := by
    cases hargs : Bench.parseArgs args with
    | error error =>
      rw [run_of_error hargs]
      simp [not_allStarted_of_error hargs]
    | ok accepted =>
      rw [exitCode_of_ok (hgenuine _ _ hargs) hargs, allStarted_iff hargs]
      split_ifs with hall hmemory <;> simp [hall]
  exitCode_eq_one_iff filter := by
    cases hargs : Bench.parseArgs args with
    | error error =>
      rw [run_of_error hargs]
      simp
    | ok accepted =>
      rw [exitCode_of_ok (hgenuine _ _ hargs) hargs]
      split_ifs <;> simp
  error error hargs := by
    refine ⟨error.debug, error.written_debug, error.oneLine_debug, fun filter => ?_⟩
    rw [run_of_error hargs]
  started hall p config hargs := by
    obtain ⟨order, horder, hrun⟩ := run_of_ok (hgenuine p config hargs) hargs
    rw [allStarted_iff hargs] at hall
    rw [hall] at horder hrun
    obtain ⟨-, hrun⟩ | ⟨hfewer, -⟩ := hrun
    · exact ⟨order, horder, fun filter => by rw [hrun]⟩
    · exact absurd hfewer (Nat.lt_irrefl _)
  cut hsome p config hargs := by
    obtain ⟨order, horder, hrun⟩ := run_of_ok (hgenuine p config hargs) hargs
    obtain ⟨hall, -⟩ | ⟨hfewer, hrun⟩ := hrun
    · exact absurd ((allStarted_iff hargs).2 hall) hsome
    · exact ⟨hfewer, order, horder, fun filter => hrun filter elapsed⟩
  less launch' hgenuine' hsame filter filter' hle := by
    cases hargs : Bench.parseArgs args with
    | error error =>
      rw [run_of_error hargs, run_of_error hargs]
      exact ⟨_, .refl _, .refl _⟩
    | ok accepted =>
      exact stderr_sublist (hgenuine _ _ hargs) (hgenuine' _ _ hargs) hargs (hsame _ _ hargs) hle
        elapsed

/-- **What the command line shows.** The workers may run one after the other, and along every fair
schedule they come to their end. Whichever way they are run and however many of them the system lets
start, the program tells what `Tells` lists: its exit code is 1 if the arguments are not accepted and
0 if they are and all workers are started, whatever the filter; an error is shown on one line, in
full; and a benchmark shows what the filter lets through of its start, of the completion of each
worker, once, and of the counter. -/
theorem command_line_tells_outcome (args : List String) (elapsed : String) :
    Genuine args Bench.launchInTurn ∧
    (∀ p config, Bench.parseArgs args = .ok (p, config) →
      ∀ schedule : Nat → (config.workers p).Move,
        Program.Fair (fun (s : (config.workers p).State) m => p.OfUse s.memory.lock m.2)
          (Program.start (config.workers p)) schedule →
        ∃ n, ∀ k, n ≤ k → ∃ x : Bench.Execution,
          x.Shows (Program.along (Program.start (config.workers p)) schedule k)) ∧
    ∀ launch, Genuine args launch → Tells args launch elapsed := by
  refine ⟨genuine_launchInTurn args, fun p config hargs schedule hfair => ?_,
    fun launch hgenuine => tells_of_genuine hgenuine elapsed⟩
  obtain ⟨expected, hvalid⟩ := Bench.validate_of_parseArgs hargs
  rw [← Primitive.promptService_ofUse] at hfair
  obtain ⟨n, hdone⟩ := Bench.eventually_completed (p.promptService _)
    (Bench.card_mul_increments_lt hvalid) hfair
  exact ⟨n, fun k hk => Bench.exists_shows (hdone k hk)⟩

/-- Two workers complete, the second one first. A run that shows less may have had them the other
way round. If the second one is refused, the first is the only one to be seen. The name of a lock
that is not known is quoted. -/
theorem command_line_tells_outcome_two :
    let args := ["ticket", "2", "1"]
    let launch := fun _ _ => Bench.Launch.complete ⟨[.completed, .completed], [1, 0], 2⟩
    let refused := fun _ _ => Bench.Launch.threadRefused ⟨[.completed], [0], 1⟩ "no more threads"
    Genuine args launch ∧ Genuine args refused ∧
    (∃ n, ∀ k, n ≤ k → ∃ x : Bench.Execution,
      x.Shows (Program.along (Program.start (Bench.Config.workers ⟨2, 1⟩ .ticket))
        (fun i => (⟨i % 2, Nat.mod_lt i Nat.two_pos⟩, TicketLock.Choice.proceed)) k)) ∧
    (run args (some .warn) launch "1ms").exitCode = 0 ∧
    (∃ order, order.Perm [0, 1] ∧ (run args (some .debug) launch "1ms").stderr =
      visible (some .debug) (transcript .ticket ⟨2, 1⟩ order "1ms")) ∧
    (∃ shown, SameUpToWorkers (run args (some .debug) Bench.launchInTurn "1ms").stderr shown ∧
      (run args (some .info) launch "1ms").stderr.Sublist shown) ∧
    (∃ order, order.Perm [0] ∧ run args (some .debug) refused "1ms" =
      ⟨101, visible (some .debug) (beginning .ticket ⟨2, 1⟩ order)⟩) ∧
    ∃ text, Bench.BenchError.Written (.unknownPrimitive "clh" "ttas,ticket,mcs,futex") text ∧
      (run ["clh"] none launch "1ms").stderr = ["Error: " ++ text] := by
  intro args launch refused
  have hargs : Bench.parseArgs args = .ok (.ticket, ⟨2, 1⟩) := by decide +kernel
  have hclh : Bench.parseArgs ["clh"] =
      .error (.unknownPrimitive "clh" "ttas,ticket,mcs,futex") := by decide +kernel
  let threads : List (Fin 2) := [1, 0, 0] ++ List.replicate 6 1 ++ List.replicate 6 0
  have hgenuine : Genuine args launch := by
    intro p config h
    obtain ⟨rfl, rfl⟩ := Prod.mk.inj (Except.ok.inj (hargs.symm.trans h))
    exact .complete (threads.map fun t => (t, TicketLock.Choice.proceed))
      ⟨by decide +kernel, by decide +kernel, by decide +kernel⟩
  have hone : Genuine args refused := by
    intro p config h
    obtain ⟨rfl, rfl⟩ := Prod.mk.inj (Except.ok.inj (hargs.symm.trans h))
    exact @Bench.Launch.Shows.threadRefused .ticket ⟨2, 1⟩ _ 1 _ (by decide)
      (List.replicate 8 (⟨0, Nat.one_pos⟩, TicketLock.Choice.proceed))
      ⟨by decide +kernel, by decide +kernel, by decide +kernel⟩
  have hnone : Genuine ["clh"] launch := fun p config h => nomatch hclh.symm.trans h
  obtain ⟨hinTurn, hfair, htells⟩ := command_line_tells_outcome args "1ms"
  have hall : AllStarted args launch := ⟨_, _, hargs, rfl⟩
  have hsome : ¬AllStarted args refused := fun h => by
    rw [allStarted_iff hargs] at h
    exact absurd h (by decide)
  refine ⟨hgenuine, hone, ?_, ((htells launch hgenuine).exitCode_eq_zero_iff _).2 hall, ?_, ?_, ?_,
    ?_⟩
  · refine hfair .ticket ⟨2, 1⟩ hargs _ ⟨fun t n => ⟨2 * n + t.val, by omega, Fin.ext ?_⟩, 0,
      fun _ _ => trivial⟩
    change (2 * n + t.val) % 2 = t.val
    have ht : t.val < 2 := t.isLt
    omega
  · obtain ⟨order, horder, hstderr⟩ := (htells launch hgenuine).started hall .ticket ⟨2, 1⟩ hargs
    exact ⟨order, horder, hstderr (some .debug)⟩
  · refine (htells launch hgenuine).less Bench.launchInTurn hinTurn ?_ (some .info) (some .debug)
      (by decide)
    intro p config h
    obtain ⟨rfl, rfl⟩ := Prod.mk.inj (Except.ok.inj (hargs.symm.trans h))
    decide +kernel
  · obtain ⟨-, order, horder, hrun⟩ := (htells refused hone).cut hsome .ticket ⟨2, 1⟩ hargs
    exact ⟨order, horder, hrun (some .debug)⟩
  · obtain ⟨text, hwritten, -, hstderr⟩ :=
      ((command_line_tells_outcome ["clh"] "1ms").2.2 launch hnone).error _ hclh
    exact ⟨text, hwritten, hstderr none⟩

/-- Arguments are accepted, and yet the program exits with neither 0 nor 1: no memory can hold the
handles of that many workers. -/
theorem accepted_but_not_started :
    let args := ["ttas", "18446744073709551615", "1"]
    Bench.parseArgs args = .ok (.ttas, ⟨18446744073709551615, 1⟩) ∧
    ∀ launch elapsed, run args standardFilter launch elapsed =
      ⟨101, ["[INFO  locks_n_rings::bench] starting ttas benchmark: 18446744073709551615 threads " ++
        "x 1 increments"]⟩ := by
  have hargs : Bench.parseArgs ["ttas", "18446744073709551615", "1"] =
      .ok (.ttas, ⟨18446744073709551615, 1⟩) := by decide +kernel
  have hvalid : Bench.Config.validate ⟨18446744073709551615, 1⟩ = .ok 18446744073709551615 := by
    decide +kernel
  refine ⟨hargs, fun launch elapsed => ?_⟩
  have hcut : run ["ttas", "18446744073709551615", "1"] standardFilter launch elapsed =
      ⟨101, LogRecord.lines standardFilter [Bench.startRecord .ttas ⟨18446744073709551615, 1⟩]⟩ := by
    simp only [run, Bench.run, hargs, hvalid]
    rfl
  rw [hcut]
  decide +kernel

example :
    run ["mcs", "2", "+3"] (some .debug) Bench.launchInTurn "1ms" = ⟨0,
      ["[INFO  locks_n_rings::bench] starting mcs benchmark: 2 threads x 3 increments",
        "[DEBUG locks_n_rings::bench] thread 0 completed",
        "[DEBUG locks_n_rings::bench] thread 1 completed",
        "[INFO  locks_n_rings] mcs finished in 1ms, counter = 6 (expected 6)"]⟩ := by
  decide +kernel

end Run

end Cli

end Handoff
