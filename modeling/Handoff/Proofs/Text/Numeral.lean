import Mathlib.Data.List.TakeWhile
import Handoff.Text.Numeral

/-!
# What a numeral stands for

Digits are read with checked arithmetic, one after the other, and the first thing wrong ends the
reading. What comes of it depends on the digits in front of the first character that is none, and
on nothing else: if their value does not fit a word, then it is too large at one of them; otherwise
the reading gets as far as that character, or to the end (`Numeral.readDigits_eq`). No digit makes a
value smaller, so it does not matter which of the front parts is said to be too large, and zeros in
front make no difference.

`Numeral.Denotes` says which texts stand for a number, and `Numeral.Fails` why the others do not.
Every text does one or the other, and reading tells which (`Numeral.read_eq_ok_iff`,
`Numeral.read_eq_error_iff`).
-/

namespace Handoff.Numeral

/-! ### Values of digits -/

/-- Further digits make a value no smaller. -/
theorem le_ofDigitChars (digits : List Char) (n : Nat) : n ≤ Nat.ofDigitChars 10 digits n := by
  induction digits generalizing n with
  | nil => exact Nat.le_refl n
  | cons c digits ih =>
    rw [Nat.ofDigitChars_cons]
    exact le_trans (by omega) (ih _)

theorem ofDigitChars_le_append (front rest : List Char) (n : Nat) :
    Nat.ofDigitChars 10 front n ≤ Nat.ofDigitChars 10 (front ++ rest) n := by
  rw [Nat.ofDigitChars_append]
  exact le_ofDigitChars rest _

/-! ### Reading digits -/

/-- The value of a digit, which is one, is its distance from zero. -/
theorem digit?_eq_some {c : Char} (h : c.isDigit = true) :
    ∃ d, digit? c = some d ∧ d.toNat = c.toNat - '0'.toNat := by
  refine ⟨_, if_pos h, ?_⟩
  have hle : c.toNat ≤ 57 := (Char.isDigit_iff_toNat.1 h).2
  have hzero : '0'.toNat = 48 := rfl
  rw [Nat.toUInt64, UInt64.toNat_ofNat', Nat.mod_eq_of_lt]
  omega

/-- A value with one more digit behind it, if it fits a word. -/
theorem shift_eq_some_iff {value digit next : UInt64} :
    (Word.mul? value 10).bind (Word.add? · digit) = some next ↔
      next.toNat = 10 * value.toNat + digit.toNat := by
  have hten : (10 : UInt64).toNat = 10 := rfl
  have hnext := next.toNat_lt
  simp only [Option.bind_eq_some_iff, Word.mul?_eq_some_iff, Word.add?_eq_some_iff, hten]
  constructor
  · rintro ⟨product, hproduct, hsum⟩
    omega
  · intro h
    have hfits : value.toNat * 10 < UInt64.size := by
      simp only [UInt64.size]
      omega
    refine ⟨UInt64.ofNat (value.toNat * 10), ?_, ?_⟩ <;>
      rw [UInt64.toNat_ofNat_of_lt' hfits]
    omega

theorem shift_eq_none_iff {value digit : UInt64} :
    (Word.mul? value 10).bind (Word.add? · digit) = none ↔
      UInt64.size ≤ 10 * value.toNat + digit.toNat := by
  constructor
  · intro h
    by_contra hlt
    have hsome := shift_eq_some_iff.2 (UInt64.toNat_ofNat_of_lt' (Nat.not_le.1 hlt))
    rw [h] at hsome
    exact nomatch hsome
  · intro h
    rw [Option.eq_none_iff_forall_ne_some]
    intro next hnext
    have hlt := next.toNat_lt
    rw [shift_eq_some_iff.1 hnext] at hlt
    exact Nat.not_lt.2 h hlt

/-- Reading depends on the digits in front: whether their value fits a word, and whether there is
nothing behind them. -/
theorem readDigits_eq (value : UInt64) (cs : List Char) :
    readDigits value cs =
      let front := cs.takeWhile Char.isDigit
      if UInt64.size ≤ Nat.ofDigitChars 10 front value.toNat then .error .overflow
      else if front = cs then .ok (UInt64.ofNat (Nat.ofDigitChars 10 front value.toNat))
      else .error .invalidDigit := by
  induction cs generalizing value with
  | nil =>
    have hfits : ¬UInt64.size ≤ value.toNat := Nat.not_le.2 value.toNat_lt
    simp [readDigits, hfits]
  | cons c cs ih =>
    by_cases hc : c.isDigit = true
    · obtain ⟨d, hd, hvalue⟩ := digit?_eq_some hc
      simp only [readDigits, hd, List.takeWhile_cons_of_pos hc, Nat.ofDigitChars_cons, ← hvalue,
        List.cons.injEq, true_and]
      cases hshift : (Word.mul? value 10).bind (Word.add? · d) with
      | none =>
        have hlarge := shift_eq_none_iff.1 hshift
        exact (if_pos (hlarge.trans (le_ofDigitChars _ _))).symm
      | some next =>
        rw [← shift_eq_some_iff.1 hshift]
        exact ih next
    · have hnone : digit? c = none := digit?_eq_none_iff.2 (Bool.eq_false_iff.2 hc)
      have hfits : ¬UInt64.size ≤ value.toNat := Nat.not_le.2 value.toNat_lt
      simp [readDigits, hnone, hc, hfits]

section ReadDigits

variable {value n : UInt64} {cs : List Char}

theorem readDigits_eq_ok_iff :
    readDigits value cs = .ok n ↔
      (∀ c ∈ cs, c.isDigit = true) ∧ Nat.ofDigitChars 10 cs value.toNat = n.toNat := by
  rw [← List.takeWhile_eq_self_iff, readDigits_eq]
  constructor
  · intro h
    dsimp only at h
    split_ifs at h with hlarge hall
    refine ⟨hall, ?_⟩
    rw [← Except.ok.inj h, UInt64.toNat_ofNat_of_lt' (Nat.not_le.1 hlarge), hall]
  · rintro ⟨hall, hvalue⟩
    have hfits : ¬UInt64.size ≤ n.toNat := Nat.not_le.2 n.toNat_lt
    simp [hall, hvalue, hfits]

/-- Some of the front parts is too large exactly if all the digits in front are. -/
theorem readDigits_eq_overflow_iff :
    readDigits value cs = .error .overflow ↔
      ∃ front, front <+: cs ∧ (∀ d ∈ front, d.isDigit = true) ∧
        UInt64.size ≤ Nat.ofDigitChars 10 front value.toNat := by
  have hread : readDigits value cs = .error .overflow ↔
      UInt64.size ≤ Nat.ofDigitChars 10 (cs.takeWhile Char.isDigit) value.toNat := by
    rw [readDigits_eq]
    dsimp only
    split_ifs with hlarge <;> simp only [hlarge, reduceCtorEq, Except.error.injEq]
  rw [hread]
  constructor
  · intro hlarge
    exact ⟨_, List.takeWhile_prefix _, fun _ => List.mem_takeWhile_imp, hlarge⟩
  · rintro ⟨front, ⟨rest, rfl⟩, hdigits, hlarge⟩
    rw [List.takeWhile_append_of_pos hdigits]
    exact hlarge.trans (ofDigitChars_le_append front _ _)

theorem readDigits_eq_invalidDigit_iff :
    readDigits value cs = .error .invalidDigit ↔
      ∃ front c rest, cs = front ++ c :: rest ∧ (∀ d ∈ front, d.isDigit = true) ∧
        c.isDigit = false ∧ Nat.ofDigitChars 10 front value.toNat < UInt64.size := by
  have hread : readDigits value cs = .error .invalidDigit ↔
      cs.takeWhile Char.isDigit ≠ cs ∧
        Nat.ofDigitChars 10 (cs.takeWhile Char.isDigit) value.toNat < UInt64.size := by
    rw [readDigits_eq, ← Nat.not_le]
    dsimp only
    split_ifs <;> simp [*]
  rw [hread]
  constructor
  · rintro ⟨hall, hfits⟩
    have hsplit := List.takeWhile_append_dropWhile (p := Char.isDigit) (l := cs)
    cases hrest : cs.dropWhile Char.isDigit with
    | nil =>
      rw [hrest, List.append_nil] at hsplit
      exact absurd hsplit hall
    | cons c rest =>
      rw [hrest] at hsplit
      have hc : c.isDigit = false := by
        have hhead := List.head?_dropWhile_not Char.isDigit cs
        rwa [hrest] at hhead
      exact ⟨_, c, rest, hsplit.symm, fun _ => List.mem_takeWhile_imp, hc, hfits⟩
  · rintro ⟨front, c, rest, rfl, hdigits, hc, hfits⟩
    have hfront : (front ++ c :: rest).takeWhile Char.isDigit = front := by
      rw [List.takeWhile_append_of_pos hdigits, List.takeWhile_cons_of_neg (by simp [hc]),
        List.append_nil]
    rw [hfront]
    exact ⟨by simp, hfits⟩

theorem readDigits_ne_empty : readDigits value cs ≠ .error .empty := by
  rw [readDigits_eq]
  dsimp only
  split_ifs <;> simp

end ReadDigits

/-! ### The sign -/

/-- What stands behind the sign, or everything if there is no sign. -/
def unsigned : List Char → List Char
  | '+' :: cs => cs
  | cs => cs

theorem unsigned_of_head?_ne {cs : List Char} (h : cs.head? ≠ some '+') : unsigned cs = cs := by
  unfold unsigned
  split
  · exact absurd rfl h
  · rfl

theorem readChars_eq {cs : List Char} (h : cs ≠ []) :
    readChars cs =
      if unsigned cs = [] then .error .invalidDigit else readDigits 0 (unsigned cs) := by
  unfold readChars
  split
  · exact absurd rfl h
  · rfl
  · next digits hlone =>
    have hdigits : digits ≠ [] := by
      rintro rfl
      exact hlone rfl
    exact (if_neg hdigits).symm
  · next hsigned =>
    have hhead : cs.head? ≠ some '+' := by
      intro hhead
      obtain ⟨digits, rfl⟩ := List.head?_eq_some_iff.1 hhead
      exact hsigned digits rfl
    rw [unsigned_of_head?_ne hhead, if_neg h]

/-! ### Numerals -/

/-- The text of a number: an optional plus sign, and then digits, at least one, of that value. -/
def Denotes (s : String) (n : Nat) : Prop :=
  ∃ digits : List Char, (s.toList = digits ∨ s.toList = '+' :: digits) ∧ digits ≠ [] ∧
    (∀ c ∈ digits, c.isDigit = true) ∧ Nat.ofDigitChars 10 digits 0 = n

/-- What is wrong with a text that stands for no number that fits a word. -/
def Fails (s : String) : NumeralError → Prop
  | .empty => s = ""
  | .invalidDigit => s ≠ "" ∧
    ((∃ front c rest, unsigned s.toList = front ++ c :: rest ∧ (∀ d ∈ front, d.isDigit = true) ∧
        c.isDigit = false ∧ Nat.ofDigitChars 10 front 0 < UInt64.size) ∨
      ∀ c ∈ unsigned s.toList, c.isDigit = false)
  | .overflow => s ≠ "" ∧
    ∃ front, front <+: unsigned s.toList ∧ (∀ d ∈ front, d.isDigit = true) ∧
      UInt64.size ≤ Nat.ofDigitChars 10 front 0

variable {s : String} {n : Nat}

/-- A sign is not a digit, so there is only one way to take a text apart. -/
theorem denotes_iff :
    Denotes s n ↔ unsigned s.toList ≠ [] ∧ (∀ c ∈ unsigned s.toList, c.isDigit = true) ∧
      Nat.ofDigitChars 10 (unsigned s.toList) 0 = n := by
  constructor
  · rintro ⟨digits, hs | hs, hne, hdigits, hvalue⟩
    · have hhead : digits.head? ≠ some '+' := fun hhead =>
        absurd (hdigits '+' (List.mem_of_head? hhead)) (by decide)
      rw [hs, unsigned_of_head?_ne hhead]
      exact ⟨hne, hdigits, hvalue⟩
    · rw [hs]
      exact ⟨hne, hdigits, hvalue⟩
  · rintro ⟨hne, hdigits, hvalue⟩
    refine ⟨_, ?_, hne, hdigits, hvalue⟩
    unfold unsigned
    split
    · next digits hs => exact .inr hs
    · exact .inl rfl

theorem read_empty : read "" = .error .empty := rfl

theorem read_eq (h : s ≠ "") :
    read s = if unsigned s.toList = [] then .error .invalidDigit
      else readDigits 0 (unsigned s.toList) :=
  readChars_eq fun hnil => h (String.toList_eq_nil_iff.1 hnil)

/-- Reading gives the number that a text stands for. -/
theorem read_eq_ok_iff {n : UInt64} : read s = .ok n ↔ Denotes s n.toNat := by
  rw [denotes_iff]
  by_cases hs : s = ""
  · simp [hs, read_empty, unsigned]
  · rw [read_eq hs]
    by_cases hnil : unsigned s.toList = []
    · simp [hnil]
    · rw [if_neg hnil, readDigits_eq_ok_iff]
      simp [hnil]

/-- Reading tells what is wrong with a text. -/
theorem read_eq_error_iff {error : NumeralError} : read s = .error error ↔ Fails s error := by
  by_cases hs : s = ""
  · cases error <;> simp [hs, read_empty, Fails]
  rw [read_eq hs]
  by_cases hnil : unsigned s.toList = []
  · cases error <;> simp [hnil, hs, Fails, UInt64.size]
  rw [if_neg hnil]
  cases error with
  | empty => simp [hs, Fails, readDigits_ne_empty]
  | overflow =>
    rw [readDigits_eq_overflow_iff]
    simp [hs, Fails]
  | invalidDigit =>
    rw [readDigits_eq_invalidDigit_iff]
    -- a text without digits begins with a character that is none
    have hnone : (∀ c ∈ unsigned s.toList, c.isDigit = false) →
        ∃ front c rest, unsigned s.toList = front ++ c :: rest ∧
          (∀ d ∈ front, d.isDigit = true) ∧ c.isDigit = false ∧
          Nat.ofDigitChars 10 front 0 < UInt64.size := by
      intro h
      obtain ⟨c, rest, hcons⟩ := List.exists_cons_of_ne_nil hnil
      refine ⟨[], c, rest, hcons, by simp, h c ?_, by simp [UInt64.size]⟩
      rw [hcons]
      exact List.mem_cons_self
    simp only [Fails, ne_eq, hs, not_false_eq_true, true_and]
    exact ⟨.inl, fun h => h.elim id hnone⟩

/-- The numerals of a number are its decimal digits, with any zeros in front and with or without a
sign. -/
theorem denotes_decimal (n zeros : Nat) (plus : Bool) :
    Denotes ((if plus then "+" else "") ++ String.ofList (List.replicate zeros '0') ++ toString n)
      n := by
  refine ⟨List.replicate zeros '0' ++ Nat.toDigits 10 n, ?_, ?_, ?_, ?_⟩
  · cases plus <;> simp
  · simp [Nat.toDigits_ne_nil]
  · intro c hc
    rcases List.mem_append.1 hc with hc | hc
    · rw [List.eq_of_mem_replicate hc]
      rfl
    · exact Nat.isDigit_of_mem_toDigits (by decide) (by decide) hc
  · rw [Nat.ofDigitChars_append, Nat.ofDigitChars_replicate_zero, Nat.mul_zero,
      Nat.ofDigitChars_ten_toDigits]

end Handoff.Numeral
