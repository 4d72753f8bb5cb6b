import Handoff.Bench.Args
import Handoff.Bench.Run
import Handoff.Proofs.Text.Numeral

/-!
# Which arguments a benchmark accepts

`Bench.Accepts` says what arguments stand for a benchmark: the name of a kind of lock, a number of
threads and a number of increments, where a number that is not given is the standard one, at least
one thread, and a product that fits a word. `Bench.Fault` lists what may be wrong with arguments,
each fault by itself and whatever else is wrong with them. Reading the arguments accepts the former,
and of the faults it reports the one that comes first in a fixed order of their kinds
(`Bench.arguments_accepted_or_first_fault`).

That the first fault is the one reported is a matter of the stages of reading. Each stage ends with
faults of its own kind, which come before those of the later stages, so whatever is wrong, reading
does not get past the stage that looks at it (`Bench.Fault.reports`).
-/

namespace Handoff

theorem Primitive.known_eq : Primitive.known = "ttas,ticket,mcs,futex" := by
  decide +kernel

namespace Bench

/-! ### Numbers -/

section Numbers

variable {what : Quantity} {given : String} {standard n : UInt64} {error : BenchError}

theorem readNumber_eq_ok_iff : readNumber what given = .ok n ↔ Numeral.Denotes given n.toNat := by
  rw [← Numeral.read_eq_ok_iff, readNumber]
  cases Numeral.read given <;> simp [Except.mapError]

theorem readNumber_eq_error_iff :
    readNumber what given = .error error ↔
      ∃ source, error = .invalidNumber what given source ∧ Numeral.Fails given source := by
  simp only [← Numeral.read_eq_error_iff, readNumber]
  cases Numeral.read given <;> simp [Except.mapError, eq_comm]

/-- A text is read as the number whose decimal digits it has, with any zeros in front and with or
without a sign, if that number fits a word. Otherwise the error says which text is meant for which
number, and why it is none: there is no character; there is a character that is no digit, or no
digit, before the digits become too large; or the digits become too large. -/
theorem number_read_or_refused (what : Quantity) :
    (∀ given, (∀ n, readNumber what given = .ok n ↔ Numeral.Denotes given n.toNat) ∧
      ∀ error, readNumber what given = .error error ↔
        ∃ source, error = .invalidNumber what given source ∧ Numeral.Fails given source) ∧
    ∀ (n : UInt64) (zeros : Nat) (plus : Bool),
      readNumber what ((if plus then "+" else "") ++ String.ofList (List.replicate zeros '0') ++
        toString n.toNat) = .ok n :=
  ⟨fun _ => ⟨fun _ => readNumber_eq_ok_iff, fun _ => readNumber_eq_error_iff⟩,
    fun n zeros plus => readNumber_eq_ok_iff.2 (Numeral.denotes_decimal n.toNat zeros plus)⟩

-- The twentieth digit is too much, and it stands in front of the letter.
example : readNumber .threadCount "18446744073709551616x" =
    .error (.invalidNumber .threadCount "18446744073709551616x" .overflow) := by
  decide +kernel

/-- What an optional argument asks for. -/
def Asks (standard : UInt64) : Option String → UInt64 → Prop
  | none, n => n = standard
  | some given, n => Numeral.Denotes given n.toNat

theorem readOptional_eq_ok_iff {given : Option String} :
    readOptional what standard given = .ok n ↔ Asks standard given n := by
  cases given with
  | none => simp [readOptional, Asks, eq_comm]
  | some given => exact readNumber_eq_ok_iff

theorem readOptional_eq_error_iff {given : Option String} :
    readOptional what standard given = .error error ↔
      ∃ text source, given = some text ∧ error = .invalidNumber what text source ∧
        Numeral.Fails text source := by
  cases given with
  | none => simp [readOptional]
  | some given => simp [readOptional, readNumber_eq_error_iff]

end Numbers

/-! ### What is accepted, and what is wrong -/

/-- Arguments that stand for a benchmark. Those after the third do not matter. -/
structure Accepts (args : List String) (primitive : Primitive) (config : Config) : Prop where
  primitive : args[0]? = some primitive.name
  threads : Asks 4 args[1]? config.threads
  increments : Asks 100000 args[2]? config.increments
  one_le_threads : 1 ≤ config.threads.toNat
  product_lt : config.threads.toNat * config.increments.toNat < UInt64.size

/-- What may be wrong with arguments, whatever else is wrong with them. -/
inductive Fault (args : List String) : BenchError → Prop
  | missingPrimitive (h : args[0]? = none) : Fault args (.missingPrimitive "ttas,ticket,mcs,futex")
  | unknownPrimitive {given : String} (h : args[0]? = some given)
      (hname : ∀ p : Primitive, given ≠ p.name) :
      Fault args (.unknownPrimitive given "ttas,ticket,mcs,futex")
  | threadCount {given : String} {source : NumeralError} (h : args[1]? = some given)
      (hfails : Numeral.Fails given source) :
      Fault args (.invalidNumber .threadCount given source)
  | incrementCount {given : String} {source : NumeralError} (h : args[2]? = some given)
      (hfails : Numeral.Fails given source) :
      Fault args (.invalidNumber .incrementCount given source)
  | zeroThreads (h : Asks 4 args[1]? 0) : Fault args .zeroThreads
  | tooManyIncrements {threads increments : UInt64} (hthreads : Asks 4 args[1]? threads)
      (hincrements : Asks 100000 args[2]? increments)
      (hlarge : UInt64.size ≤ threads.toNat * increments.toNat) :
      Fault args (.tooManyIncrements threads increments)

/-- The place of an error in the order in which the faults of arguments are reported. The errors of
a benchmark that has started come last. -/
def BenchError.place : BenchError → Nat
  | .missingPrimitive _ => 0
  | .unknownPrimitive _ _ => 1
  | .invalidNumber .threadCount _ _ => 2
  | .invalidNumber .incrementCount _ _ => 3
  | .zeroThreads => 4
  | .tooManyIncrements _ _ => 5
  | .counterMismatch _ _ | .workerPanicked => 6

/-! ### The stages of reading -/

section Stages

variable {α β : Type} {x : Except BenchError α} {f : α → Except BenchError β} {error : BenchError}

theorem bind_eq_ok_iff {b : β} : x >>= f = .ok b ↔ ∃ a, x = .ok a ∧ f a = .ok b := by
  cases x <;> simp [bind, Except.bind]

theorem bind_eq_error_iff :
    x >>= f = .error error ↔ x = .error error ∨ ∃ a, x = .ok a ∧ f a = .error error := by
  cases x <;> simp [bind, Except.bind]

/-- To fail with an error, or with one that comes before it. -/
def Reports (error : BenchError) (x : Except BenchError α) : Prop :=
  x = .error error ∨ ∃ earlier, x = .error earlier ∧ earlier.place < error.place

theorem Reports.of_error (h : x = .error error) : Reports error (x >>= f) := by
  rw [h]
  exact .inl rfl

/-- What is wrong at a stage is reported, if the stages before fail with earlier errors only. -/
theorem Reports.bind (hfirst : ∀ earlier, x = .error earlier → earlier.place < error.place)
    (hthen : ∀ a, x = .ok a → Reports error (f a)) : Reports error (x >>= f) := by
  cases x with
  | error earlier => exact .inr ⟨earlier, rfl, hfirst earlier rfl⟩
  | ok a => exact hthen a rfl

end Stages

theorem readPrimitive_eq_ok_iff {given : Option String} {p : Primitive} :
    readPrimitive given = .ok p ↔ given = some p.name := by
  cases given with
  | none => simp [readPrimitive]
  | some given =>
    rw [Option.some.injEq, ← Primitive.ofName?_eq_some_iff, readPrimitive]
    cases Primitive.ofName? given <;> simp

theorem readPrimitive_eq_error_iff {given : Option String} {error : BenchError} :
    readPrimitive given = .error error ↔
      given = none ∧ error = .missingPrimitive Primitive.known ∨
      ∃ text, given = some text ∧ (∀ p : Primitive, text ≠ p.name) ∧
        error = .unknownPrimitive text Primitive.known := by
  cases given with
  | none => simp [readPrimitive, eq_comm]
  | some given =>
    have hname : Primitive.ofName? given = none ↔ ∀ p : Primitive, given ≠ p.name := by
      simp [Option.eq_none_iff_forall_ne_some, Primitive.ofName?_eq_some_iff]
    simp only [readPrimitive, reduceCtorEq, false_and, false_or, Option.some.injEq, ← hname,
      exists_eq_left']
    cases Primitive.ofName? given <;> simp [eq_comm]

theorem validate_eq_error_iff {config : Config} {error : BenchError} :
    config.validate = .error error ↔
      config.threads = 0 ∧ error = .zeroThreads ∨
      UInt64.size ≤ config.threads.toNat * config.increments.toNat ∧
        error = .tooManyIncrements config.threads config.increments := by
  rw [← Word.mul?_eq_none_iff, Config.validate, Config.expected]
  by_cases hzero : config.threads = 0
  · have hsome : Word.mul? 0 config.increments ≠ none := by
      simp [Word.mul?_eq_none_iff, UInt64.size]
    simp [hzero, hsome, eq_comm]
  · cases Word.mul? config.threads config.increments <;> simp [hzero, eq_comm]

theorem parseArgs_eq (args : List String) :
    parseArgs args = readPrimitive args[0]? >>= fun primitive =>
      readOptional .threadCount 4 args[1]? >>= fun threads =>
      readOptional .incrementCount 100000 args[2]? >>= fun increments =>
      (⟨threads, increments⟩ : Config).validate >>= fun _ =>
      .ok (primitive, ⟨threads, increments⟩) := rfl

/-! ### Reading the arguments -/

section Args

variable {args : List String} {primitive : Primitive} {config : Config} {error : BenchError}

/-- What an acceptable configuration comes to in the end is the exact product. -/
theorem validate_eq_ok_of_lt (hone : 1 ≤ config.threads.toNat)
    (hlt : config.threads.toNat * config.increments.toNat < UInt64.size) :
    config.validate = .ok (config.threads * config.increments) := by
  refine Config.validate_eq_ok_iff.2 ⟨?_, ?_⟩
  · rintro hzero
    simp [hzero] at hone
  · rw [UInt64.toNat_mul, Nat.mod_eq_of_lt hlt]

theorem parseArgs_eq_ok_iff :
    parseArgs args = .ok (primitive, config) ↔ Accepts args primitive config := by
  simp only [parseArgs_eq, bind_eq_ok_iff, readPrimitive_eq_ok_iff, readOptional_eq_ok_iff]
  constructor
  · rintro ⟨p, hp, threads, hthreads, increments, hincrements, counter, hvalid, heq⟩
    obtain ⟨rfl, rfl⟩ := Prod.mk.inj (Except.ok.inj heq)
    obtain ⟨hne, hcounter⟩ := Config.validate_eq_ok_iff.1 hvalid
    refine ⟨hp, hthreads, hincrements, ?_, hcounter ▸ counter.toNat_lt⟩
    exact Nat.one_le_iff_ne_zero.2 fun hzero => hne (UInt64.toNat_inj.1 hzero)
  · intro h
    exact ⟨primitive, h.primitive, config.threads, h.threads, config.increments, h.increments,
      _, validate_eq_ok_of_lt h.one_le_threads h.product_lt, rfl⟩

/-- What is accepted is found acceptable again. -/
theorem validate_of_parseArgs (h : parseArgs args = .ok (primitive, config)) :
    ∃ counter, config.validate = .ok counter :=
  have haccepts := parseArgs_eq_ok_iff.1 h
  ⟨_, validate_eq_ok_of_lt haccepts.one_le_threads haccepts.product_lt⟩

/-- What is reported is wrong. -/
theorem fault_of_parseArgs (h : parseArgs args = .error error) : Fault args error := by
  simp only [parseArgs_eq, bind_eq_error_iff, readPrimitive_eq_error_iff,
    readOptional_eq_error_iff, readOptional_eq_ok_iff, validate_eq_error_iff] at h
  rcases h with (⟨hnone, rfl⟩ | ⟨text, htext, hname, rfl⟩) | ⟨p, -, h⟩
  · rw [Primitive.known_eq]
    exact .missingPrimitive hnone
  · rw [Primitive.known_eq]
    exact .unknownPrimitive htext hname
  rcases h with ⟨text, source, htext, rfl, hfails⟩ | ⟨threads, hthreads, h⟩
  · exact .threadCount htext hfails
  rcases h with ⟨text, source, htext, rfl, hfails⟩ | ⟨increments, hincrements, h⟩
  · exact .incrementCount htext hfails
  rcases h with (⟨rfl, rfl⟩ | ⟨hlarge, rfl⟩) | ⟨_, -, hok⟩
  · exact .zeroThreads hthreads
  · exact .tooManyIncrements hthreads hincrements hlarge
  · exact nomatch hok

theorem place_of_readPrimitive {given : Option String} (h : readPrimitive given = .error error) :
    error.place ≤ 1 := by
  rcases readPrimitive_eq_error_iff.1 h with ⟨-, rfl⟩ | ⟨text, -, -, rfl⟩ <;>
    simp [BenchError.place]

theorem place_of_readOptional {what : Quantity} {standard : UInt64} {given : Option String}
    (h : readOptional what standard given = .error error) :
    error.place = match what with | .threadCount => 2 | .incrementCount => 3 := by
  obtain ⟨text, source, -, rfl, -⟩ := readOptional_eq_error_iff.1 h
  cases what <;> rfl

/-- What is wrong is reported, or something that comes before it. -/
theorem Fault.reports (h : Fault args error) : Reports error (parseArgs args) := by
  rw [parseArgs_eq]
  have hprimitive : ∀ earlier, readPrimitive args[0]? = .error earlier → earlier.place < 2 :=
    fun earlier he => Nat.lt_succ_of_le (place_of_readPrimitive he)
  have hcount : ∀ earlier, readOptional .threadCount 4 args[1]? = .error earlier →
      earlier.place < 3 := fun earlier he => by simp [place_of_readOptional he]
  have hincrement : ∀ earlier, readOptional .incrementCount 100000 args[2]? = .error earlier →
      earlier.place < 4 := fun earlier he => by simp [place_of_readOptional he]
  cases h with
  | missingPrimitive h =>
    refine .of_error (readPrimitive_eq_error_iff.2 (.inl ⟨h, ?_⟩))
    rw [Primitive.known_eq]
  | unknownPrimitive h hname =>
    refine .of_error (readPrimitive_eq_error_iff.2 (.inr ⟨_, h, hname, ?_⟩))
    rw [Primitive.known_eq]
  | threadCount h hfails =>
    refine .bind hprimitive fun p _ => ?_
    exact .of_error (readOptional_eq_error_iff.2 ⟨_, _, h, rfl, hfails⟩)
  | incrementCount h hfails =>
    refine .bind (fun e he => (hprimitive e he).trans (by simp [BenchError.place])) fun p _ => ?_
    refine .bind hcount fun threads _ => ?_
    exact .of_error (readOptional_eq_error_iff.2 ⟨_, _, h, rfl, hfails⟩)
  | zeroThreads hzero =>
    refine .bind (fun e he => (hprimitive e he).trans (by simp [BenchError.place])) fun p _ => ?_
    rw [readOptional_eq_ok_iff.2 hzero]
    refine .bind (fun e he => nomatch he) fun threads hthreads => ?_
    obtain rfl := Except.ok.inj hthreads
    refine .bind hincrement fun increments _ => ?_
    exact .of_error (validate_eq_error_iff.2 (.inl ⟨rfl, rfl⟩))
  | @tooManyIncrements threads increments hthreads hincrements hlarge =>
    refine .bind (fun e he => (hprimitive e he).trans (by simp [BenchError.place])) fun p _ => ?_
    rw [readOptional_eq_ok_iff.2 hthreads]
    refine .bind (fun e he => nomatch he) fun _ heq => ?_
    obtain rfl := Except.ok.inj heq
    rw [readOptional_eq_ok_iff.2 hincrements]
    refine .bind (fun e he => nomatch he) fun _ heq => ?_
    obtain rfl := Except.ok.inj heq
    exact .of_error (validate_eq_error_iff.2 (.inr ⟨hlarge, rfl⟩))

/-- The first thing wrong is what is reported. -/
theorem parseArgs_eq_error_iff :
    parseArgs args = .error error ↔
      Fault args error ∧ ∀ other, Fault args other → error.place ≤ other.place := by
  constructor
  · intro h
    refine ⟨fault_of_parseArgs h, fun other hother => ?_⟩
    rcases hother.reports with hsame | ⟨earlier, hearlier, hlt⟩
    · obtain rfl := Except.error.inj (h.symm.trans hsame)
      exact Nat.le_refl _
    · obtain rfl := Except.error.inj (h.symm.trans hearlier)
      exact Nat.le_of_lt hlt
  · rintro ⟨hfault, hfirst⟩
    rcases hfault.reports with hsame | ⟨earlier, hearlier, hlt⟩
    · exact hsame
    · exact absurd (hfirst earlier (fault_of_parseArgs hearlier)) (Nat.not_le.2 hlt)

/-- Nobody looks at more than three arguments. -/
theorem parseArgs_congr {others : List String} (h : others.take 3 = args.take 3) :
    parseArgs others = parseArgs args := by
  have hget : ∀ i < 3, others[i]? = args[i]? := fun i hi => by
    rw [← List.getElem?_take_of_lt hi, h, List.getElem?_take_of_lt hi]
  rw [parseArgs_eq, parseArgs_eq, hget 0 (by decide), hget 1 (by decide), hget 2 (by decide)]

/-- **Arguments are accepted, or the first fault is reported.** Reading accepts exactly the arguments
that stand for a benchmark. If it does not accept them, it reports what is wrong with them, with the
text or the numbers that are to blame, and of several faults the one that comes first. The
arguments after the third do not matter. Whatever is accepted has the exact product for its counter
in the end, so no later check fails: the benchmark goes on to start its workers. -/
theorem arguments_accepted_or_first_fault (args : List String) :
    (∀ primitive config,
      parseArgs args = .ok (primitive, config) ↔ Accepts args primitive config) ∧
    (∀ error, parseArgs args = .error error ↔
      Fault args error ∧ ∀ other, Fault args other → error.place ≤ other.place) ∧
    (∀ others, others.take 3 = args.take 3 → parseArgs others = parseArgs args) ∧
    ∀ primitive config, parseArgs args = .ok (primitive, config) →
      ∃ counter, config.validate = .ok counter ∧ config.expected = some counter ∧
        counter.toNat = config.threads.toNat * config.increments.toNat ∧
        ∀ launch, run primitive config launch = runWorkers primitive config counter launch := by
  refine ⟨fun _ _ => parseArgs_eq_ok_iff, fun _ => parseArgs_eq_error_iff,
    fun _ => parseArgs_congr, fun primitive config h => ?_⟩
  obtain ⟨counter, hvalid⟩ := validate_of_parseArgs h
  have hproduct := (Config.validate_eq_ok_iff.1 hvalid).2
  refine ⟨counter, hvalid, Word.mul?_eq_some_iff.2 hproduct, hproduct, fun launch => ?_⟩
  simp only [run, hvalid]

/-- Eight threads are asked for with a sign and a zero in front, and more arguments follow. A thread
count of zero comes after an increment count that is no number. -/
theorem arguments_accepted_or_first_fault_eight :
    parseArgs ["futex", "+08", "1000", "--quick"] = .ok (.futex, ⟨8, 1000⟩) ∧
    (∃ counter, Config.validate ⟨8, 1000⟩ = .ok counter ∧ counter.toNat = 8 * 1000) ∧
    Fault ["ttas", "0", "x"] .zeroThreads ∧
    parseArgs ["ttas", "0", "x"] = .error (.invalidNumber .incrementCount "x" .invalidDigit) := by
  have haccepted : parseArgs ["futex", "+08", "1000"] = .ok (.futex, ⟨8, 1000⟩) := by
    decide +kernel
  have hrefused : parseArgs ["ttas", "0", "x", "y"] =
      .error (.invalidNumber .incrementCount "x" .invalidDigit) := by
    decide +kernel
  have hquick := (arguments_accepted_or_first_fault ["futex", "+08", "1000"]).2.2.1
    ["futex", "+08", "1000", "--quick"] rfl
  obtain ⟨counter, hvalid, -, hproduct, -⟩ :=
    (arguments_accepted_or_first_fault ["futex", "+08", "1000"]).2.2.2 .futex ⟨8, 1000⟩ haccepted
  have hshort := (arguments_accepted_or_first_fault ["ttas", "0", "x", "y"]).2.2.1
    ["ttas", "0", "x"] rfl
  refine ⟨hquick.trans haccepted, ⟨counter, hvalid, hproduct⟩, .zeroThreads ?_,
    hshort.trans hrefused⟩
  have hzero : readOptional .threadCount 4 (some "0") = .ok 0 := by decide +kernel
  exact readOptional_eq_ok_iff.1 hzero

end Args

end Bench

end Handoff
