import Mathlib.Tactic.SplitIfs
import Handoff.Bench.Config

/-!
# How errors are written

An error as a value is written as the name of its kind with what it carries, and texts in it stand
between quotes. `Text.Quotes` says character by character how a text is quoted, and
`Bench.BenchError.Written` how each error is written, down to the last blank; that is how the errors
of a benchmark are written (`Bench.BenchError.written_debug`).

Whatever an argument holds, the error that quotes it fits on one line: a line end between quotes is
written as an escape (`Text.oneLine_quote`), and all else in an error is names and numbers
(`Bench.BenchError.oneLine_debug`).
-/

namespace Handoff

namespace Text

/-- A text without a line end. -/
def OneLine (s : String) : Prop := '\n' ∉ s.toList

instance (s : String) : Decidable (OneLine s) := inferInstanceAs (Decidable ('\n' ∉ s.toList))

theorem OneLine.append {s t : String} (hs : OneLine s) (ht : OneLine t) : OneLine (s ++ t) := by
  simp only [OneLine, String.toList_append, List.mem_append, not_or]
  exact ⟨hs, ht⟩

theorem mem_intersperse {α : Type} {a separator : α} {l : List α}
    (h : a ∈ l.intersperse separator) : a = separator ∨ a ∈ l := by
  induction l with
  | nil => exact nomatch h
  | cons b l ih =>
    cases l with
    | nil => exact .inr h
    | cons c l =>
      rw [List.intersperse_cons_cons, List.mem_cons, List.mem_cons] at h
      rcases h with rfl | rfl | h
      · exact .inr List.mem_cons_self
      · exact .inl rfl
      · exact (ih h).imp_right (List.mem_cons_of_mem b)

theorem OneLine.intercalate {separator : String} {l : List String} (hseparator : OneLine separator)
    (h : ∀ s ∈ l, OneLine s) : OneLine (separator.intercalate l) := by
  intro hmem
  rw [String.toList_intercalate, List.intercalate, List.mem_flatten] at hmem
  obtain ⟨piece, hpiece, hin⟩ := hmem
  rcases mem_intersperse hpiece with rfl | hpiece
  · exact hseparator hin
  · obtain ⟨s, hs, rfl⟩ := List.mem_map.1 hpiece
    exact h s hs hin

theorem newline_notMem_toDigits {base : Nat} (hbase : 1 < base) (n : Nat) :
    '\n' ∉ Nat.toDigits base n := by
  induction n using Nat.strongRecOn with
  | ind n ih =>
    rw [Nat.toDigits_eq_if hbase]
    split_ifs with hlt
    · simp
    · have hless : n / base < n := Nat.div_lt_self (by omega) hbase
      simp [ih _ hless]

theorem oneLine_toString (n : Nat) : OneLine (toString n) := by
  rw [OneLine, Nat.toString_eq_ofList_toDigits, String.toList_ofList]
  exact newline_notMem_toDigits (by decide) n

theorem newline_notMem_escape (c : Char) : '\n' ∉ escape c := by
  unfold escape
  split_ifs with hquote htab hline hreturn hnull hshown
  · rcases hquote with rfl | rfl <;> decide
  · decide
  · decide
  · decide
  · decide
  · simpa using fun h : '\n' = c => hline h.symm
  · have hdigits : '\n' ∉ hexDigits c.toNat := newline_notMem_toDigits (by decide) _
    simp [hdigits]

theorem oneLine_quote (s : String) : OneLine (quote s) := by
  simp [OneLine, quote, newline_notMem_escape]

/-! ### Characters between quotes -/

/-- How a character is written between quotes. Which characters beyond ASCII show nothing is a matter
of tables; of those in ASCII it is the controls. -/
inductive Escapes : Char → List Char → Prop
  | quote : Escapes '"' ['\\', '"']
  | backslash : Escapes '\\' ['\\', '\\']
  | tab : Escapes '\t' ['\\', 't']
  | lineEnd : Escapes '\n' ['\\', 'n']
  | carriageReturn : Escapes '\r' ['\\', 'r']
  | null : Escapes '\x00' ['\\', '0']
  | plain {c : Char} (hquote : c ≠ '"') (hbackslash : c ≠ '\\')
    (hshown : 0x20 ≤ c.toNat ∧ c.toNat < 0x7f ∨ 0x80 ≤ c.toNat ∧ isShown c = true) :
    Escapes c [c]
  | codePoint {c : Char} (hown : c ∉ ['\t', '\n', '\r', '\x00'])
    (hhidden : c.toNat < 0x20 ∨ c.toNat = 0x7f ∨ 0x80 ≤ c.toNat ∧ isShown c = false) :
    Escapes c (['\\', 'u', '\x7b'] ++ Nat.toDigits 16 c.toNat ++ ['\x7d'])

/-- Which ASCII characters show something. -/
theorem isShown_of_lt {c : Char} (h : c.toNat < 0x80) :
    isShown c = decide (0x20 ≤ c.toNat ∧ c.toNat < 0x7f) := by
  rw [isShown, if_pos h, Bool.decide_and]

theorem escapes_escape (c : Char) : Escapes c (escape c) := by
  unfold escape
  split_ifs with hquote htab hline hreturn hnull hshown
  · rcases hquote with rfl | rfl
    · exact .quote
    · exact .backslash
  · exact htab ▸ .tab
  · exact hline ▸ .lineEnd
  · exact hreturn ▸ .carriageReturn
  · have hzero : c = '\x00' := Char.toNat_inj.1 hnull
    exact hzero ▸ .null
  · obtain ⟨hquote, hbackslash⟩ := not_or.1 hquote
    refine .plain hquote hbackslash ?_
    by_cases hascii : c.toNat < 0x80
    · rw [isShown_of_lt hascii] at hshown
      exact .inl (of_decide_eq_true hshown)
    · exact .inr ⟨Nat.le_of_not_lt hascii, hshown⟩
  · refine .codePoint ?_ ?_
    · have hzero : c ≠ '\x00' := fun h => hnull (congrArg Char.toNat h)
      simp [htab, hline, hreturn, hzero]
    · by_cases hascii : c.toNat < 0x80
      · rw [isShown_of_lt hascii, decide_eq_true_eq] at hshown
        omega
      · exact .inr (.inr ⟨Nat.le_of_not_lt hascii, Bool.eq_false_iff.2 hshown⟩)

/-- How characters are written one after the other. -/
inductive EscapesAll : List Char → List Char → Prop
  | nil : EscapesAll [] []
  | cons {c : Char} {cs piece pieces : List Char} (hc : Escapes c piece)
    (hcs : EscapesAll cs pieces) : EscapesAll (c :: cs) (piece ++ pieces)

theorem escapesAll_flatMap (cs : List Char) : EscapesAll cs (cs.flatMap escape) := by
  induction cs with
  | nil => exact .nil
  | cons c cs ih => exact .cons (escapes_escape c) ih

/-- How a text is written between quotes. -/
def Quotes (s quoted : String) : Prop :=
  ∃ inner, EscapesAll s.toList inner ∧ quoted = "\"" ++ String.ofList inner ++ "\""

theorem quotes_quote (s : String) : Quotes s (quote s) := by
  refine ⟨_, escapesAll_flatMap s.toList, ?_⟩
  rw [← String.toList_inj]
  simp [quote]

end Text

namespace Bench.BenchError

open Text

theorem oneLine_fields {list : List (String × String)}
    (hnames : ∀ name ∈ list.map Prod.fst, OneLine name)
    (hvalues : ∀ value ∈ list.map Prod.snd, OneLine value) : OneLine (fields list) := by
  have hfields : ∀ s ∈ list.map (fun field => field.1 ++ ": " ++ field.2), OneLine s := by
    intro s hs
    obtain ⟨field, hfield, rfl⟩ := List.mem_map.1 hs
    have hname := hnames field.1 (List.mem_map_of_mem hfield)
    have hvalue := hvalues field.2 (List.mem_map_of_mem hfield)
    exact (hname.append (by decide)).append hvalue
  exact (OneLine.append (by decide) (OneLine.intercalate (by decide) hfields)).append (by decide)

/-- How an error is written as a value. -/
def Written : BenchError → String → Prop
  | .missingPrimitive known, text =>
    ∃ list, Quotes known list ∧ text = "MissingPrimitive(" ++ list ++ ")"
  | .unknownPrimitive given known, text =>
    ∃ name list, Quotes given name ∧ Quotes known list ∧
      text = "UnknownPrimitive \x7b given: " ++ name ++ ", known: " ++ list ++ " \x7d"
  | .invalidNumber what given source, text =>
    ∃ number, Quotes given number ∧
      text = "InvalidNumber \x7b what: " ++
        (match what with
          | .threadCount => "\"thread count\""
          | .incrementCount => "\"increment count\"") ++
        ", given: " ++ number ++ ", source: ParseIntError \x7b kind: " ++
        (match source with
          | .empty => "Empty"
          | .invalidDigit => "InvalidDigit"
          | .overflow => "PosOverflow") ++ " \x7d \x7d"
  | .zeroThreads, text => text = "ZeroThreads"
  | .tooManyIncrements threads increments, text =>
    text = "TooManyIncrements \x7b threads: " ++ toString threads.toNat ++ ", increments: " ++
      toString increments.toNat ++ " \x7d"
  | .counterMismatch actual expected, text =>
    text = "CounterMismatch \x7b actual: " ++ toString actual.toNat ++ ", expected: " ++
      toString expected.toNat ++ " \x7d"
  | .workerPanicked, text => text = "WorkerPanicked"

/-- An error is written so. -/
theorem written_debug (error : BenchError) : error.Written error.debug := by
  -- the two texts are put together from different pieces, but from the same characters
  cases error with
  | missingPrimitive known => exact ⟨_, quotes_quote known, rfl⟩
  | unknownPrimitive given known =>
    refine ⟨_, _, quotes_quote given, quotes_quote known, ?_⟩
    rw [← String.toList_inj]
    simp [debug, kind, fields]
  | invalidNumber what given source =>
    refine ⟨_, quotes_quote given, ?_⟩
    have hwhat : quote what.name = match what with
        | .threadCount => "\"thread count\""
        | .incrementCount => "\"increment count\"" := by
      cases what <;> decide +kernel
    rw [← String.toList_inj]
    cases source <;> simp [debug, kind, fields, hwhat, NumeralError.kind]
  | tooManyIncrements threads increments =>
    change _ = _
    rw [← String.toList_inj]
    simp [debug, kind, fields]
  | counterMismatch actual expected =>
    change _ = _
    rw [← String.toList_inj]
    simp [debug, kind, fields]
  | zeroThreads | workerPanicked => rfl

/-- An error as a value is written on one line. -/
theorem oneLine_debug (error : BenchError) : OneLine error.debug := by
  have hkind : OneLine error.kind := by cases error <;> simp only [kind] <;> decide
  refine hkind.append ?_
  cases error with
  | missingPrimitive known =>
    exact (OneLine.append (by decide) (oneLine_quote known)).append (by decide)
  | unknownPrimitive given known =>
    have hnames : ∀ name ∈ ["given", "known"], OneLine name := by decide
    exact oneLine_fields hnames (by simp [oneLine_quote])
  | invalidNumber what given source =>
    have hnames : ∀ name ∈ ["what", "given", "source"], OneLine name := by decide
    have hsource : OneLine ("ParseIntError" ++ fields [("kind", source.kind)]) := by
      cases source <;> decide
    exact oneLine_fields hnames (by simp [oneLine_quote, hsource])
  | tooManyIncrements threads increments =>
    have hnames : ∀ name ∈ ["threads", "increments"], OneLine name := by decide
    refine oneLine_fields hnames ?_
    simp only [List.map_cons, List.map_nil, List.forall_mem_cons]
    exact ⟨oneLine_toString _, oneLine_toString _, nofun⟩
  | counterMismatch actual expected =>
    have hnames : ∀ name ∈ ["actual", "expected"], OneLine name := by decide
    refine oneLine_fields hnames ?_
    simp only [List.map_cons, List.map_nil, List.forall_mem_cons]
    exact ⟨oneLine_toString _, oneLine_toString _, nofun⟩
  | zeroThreads | workerPanicked => decide

end Bench.BenchError

end Handoff
