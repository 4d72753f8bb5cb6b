import Mathlib.Algebra.Ring.Nat
import Mathlib.Data.List.DropRight
import Handoff.Text.Elapsed

/-!
# What a span in words says

The words for a span leave nothing out: the digits in front of the point and those behind it stand for
the span to the nanosecond, although zeros at the end are not written (`Decimal.IsFraction`), and the
unit is the largest of which the span holds at least one, if there is any (`Span.text_eq`).
-/

namespace Handoff

namespace Decimal

/-- Whether digits behind a point stand for so many of `10 ^ places` parts, without a zero at the
end. -/
structure IsFraction (digits : List Char) (parts places : Nat) : Prop where
  length_le : digits.length ≤ places
  isDigit : ∀ c ∈ digits, c.isDigit = true
  value : Nat.ofDigitChars 10 digits 0 * 10 ^ (places - digits.length) = parts
  last : digits.getLast? ≠ some '0'

/-- Digits are those in front of the zeros at the end, and zeros. -/
theorem exists_eq_append_replicate (digits : List Char) :
    ∃ zeros, digits = digits.rdropWhile (· = '0') ++ List.replicate zeros '0' := by
  refine ⟨(digits.rtakeWhile (· = '0')).length, ?_⟩
  have hzeros : digits.rtakeWhile (· = '0') =
      List.replicate (digits.rtakeWhile (· = '0')).length '0' :=
    List.eq_replicate_of_mem fun c hc =>
      of_decide_eq_true (List.mem_rtakeWhile_imp (p := fun c => decide (c = '0')) hc)
  rw [← hzeros, List.rdropWhile_append_rtakeWhile]

/-- Zeros at the end of a fraction need not be written. -/
theorem isFraction_rdropWhile {digits : List Char} (hdigits : ∀ c ∈ digits, c.isDigit = true) :
    IsFraction (digits.rdropWhile (· = '0')) (Nat.ofDigitChars 10 digits 0) digits.length := by
  obtain ⟨zeros, hzeros⟩ := exists_eq_append_replicate digits
  have hlast : (digits.rdropWhile (· = '0')).getLast? ≠ some '0' := by
    intro hlast
    have hne : digits.rdropWhile (· = '0') ≠ [] := fun hnil => nomatch hnil ▸ hlast
    rw [List.getLast?_eq_some_getLast hne] at hlast
    exact List.rdropWhile_last_not _ _ hne (decide_eq_true (Option.some.inj hlast))
  generalize digits.rdropWhile (· = '0') = kept at hzeros hlast
  subst hzeros
  refine ⟨by simp, fun c hc => hdigits c (List.mem_append_left _ hc), ?_, hlast⟩
  rw [Nat.ofDigitChars_append, Nat.ofDigitChars_replicate_zero, List.length_append,
    List.length_replicate, Nat.add_sub_cancel_left, Nat.mul_comm]

/-- The digits behind the point stand for what they are made from. -/
theorem isFraction_fractionDigits {parts places : Nat} (hplaces : 0 < places)
    (hparts : parts < 10 ^ places) :
    IsFraction (fractionDigits parts places) parts places := by
  let digits := Nat.toDigits 10 parts
  let padded := List.replicate (places - digits.length) '0' ++ digits
  have hdigits : ∀ c ∈ padded, c.isDigit = true := by
    intro c hc
    rcases List.mem_append.1 hc with hzero | hc
    · rw [List.eq_of_mem_replicate hzero]
      decide
    · exact Nat.isDigit_of_mem_toDigits (by decide) (by decide) hc
  have hlength : padded.length = places := by
    have hle : digits.length ≤ places :=
      (Nat.length_toDigits_le_iff (by decide) hplaces).2 hparts
    rw [List.length_append, List.length_replicate]
    omega
  have hvalue : Nat.ofDigitChars 10 padded 0 = parts := by
    rw [Nat.ofDigitChars_append, Nat.ofDigitChars_replicate_zero, Nat.mul_zero]
    exact Nat.ofDigitChars_toDigits (by decide) (by decide)
  have hfraction := isFraction_rdropWhile hdigits
  rwa [hlength, hvalue] at hfraction

/-- What is written in decimal notation is the whole part and, if there is one, a fraction. -/
theorem exists_decimal_eq (n places : Nat) :
    ∃ digits, IsFraction digits (n % 10 ^ places) places ∧
      decimal n places = toString (n / 10 ^ places) ++
        if digits = [] then "" else "." ++ String.ofList digits := by
  have hpow : Nat.pow 10 places = 10 ^ places := rfl
  rw [decimal, hpow]
  cases hrest : n % 10 ^ places with
  | zero =>
    exact ⟨[], ⟨Nat.zero_le _, nofun, Nat.zero_mul _, nofun⟩, (String.append_empty).symm⟩
  | succ rest =>
    have hlt : rest + 1 < 10 ^ places := hrest ▸ Nat.mod_lt _ (Nat.pow_pos (by decide))
    have hplaces : 0 < places := by
      refine Nat.pos_of_ne_zero ?_
      rintro rfl
      omega
    have hfraction := isFraction_fractionDigits hplaces hlt
    refine ⟨_, hfraction, ?_⟩
    have hsome : fractionDigits (rest + 1) places ≠ [] := by
      intro hnone
      have hzero := hfraction.value
      rw [hnone, Nat.ofDigitChars_nil, Nat.zero_mul] at hzero
      exact nomatch hzero
    rw [if_neg hsome]
    exact String.append_assoc

end Decimal

/-- The units of spans, with the number of digits that a nanosecond is behind the point. -/
def Span.units : List (Nat × String) := [(9, "s"), (6, "ms"), (3, "µs"), (0, "ns")]

/-- A span is written as a number of units, exactly. The unit is the largest of which it holds at
least one, and nanoseconds if it is empty. -/
theorem Span.text_eq (span : Span) :
    ∃ unit ∈ units, ∃ digits, Decimal.IsFraction digits (span.nanoseconds % 10 ^ unit.1) unit.1 ∧
      span.text = toString (span.nanoseconds / 10 ^ unit.1) ++
        (if digits = [] then "" else "." ++ String.ofList digits) ++ unit.2 ∧
      (unit.1 ≠ 0 → 0 < span.nanoseconds / 10 ^ unit.1) ∧
      ∀ larger ∈ units, unit.1 < larger.1 → span.nanoseconds / 10 ^ larger.1 = 0 := by
  have hunit : ∃ unit ∈ units, span.text = decimal span.nanoseconds unit.1 ++ unit.2 ∧
      (unit.1 ≠ 0 → 10 ^ unit.1 ≤ span.nanoseconds) ∧
      ∀ larger ∈ units, unit.1 < larger.1 → span.nanoseconds < 10 ^ larger.1 := by
    have hunits : ∀ place, (∀ larger ∈ units, place < larger.1 → span.nanoseconds < 10 ^ larger.1) ↔
        (place < 9 → span.nanoseconds < 10 ^ 9) ∧ (place < 6 → span.nanoseconds < 10 ^ 6) ∧
          (place < 3 → span.nanoseconds < 10 ^ 3) := by
      simp [units]
    by_cases hs : 1000000000 ≤ span.nanoseconds
    · exact ⟨(9, "s"), by decide, by rw [text, if_pos hs], fun _ => hs, (hunits 9).2 (by omega)⟩
    by_cases hms : 1000000 ≤ span.nanoseconds
    · exact ⟨(6, "ms"), by decide, by rw [text, if_neg hs, if_pos hms], fun _ => hms,
        (hunits 6).2 (by omega)⟩
    by_cases hus : 1000 ≤ span.nanoseconds
    · exact ⟨(3, "µs"), by decide, by rw [text, if_neg hs, if_neg hms, if_pos hus], fun _ => hus,
        (hunits 3).2 (by omega)⟩
    · exact ⟨(0, "ns"), by decide, by rw [text, if_neg hs, if_neg hms, if_neg hus],
        fun h => absurd rfl h, (hunits 0).2 (by omega)⟩
  obtain ⟨unit, hmem, htext, hone, hnone⟩ := hunit
  obtain ⟨digits, hdigits, hdecimal⟩ := Decimal.exists_decimal_eq span.nanoseconds unit.1
  refine ⟨unit, hmem, digits, hdigits, by rw [htext, hdecimal], fun h => ?_, fun larger hl hlt => ?_⟩
  · exact Nat.div_pos (hone h) (Nat.pow_pos (by decide))
  · exact Nat.div_eq_of_lt (hnone larger hl hlt)

end Handoff
