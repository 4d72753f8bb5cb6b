import Handoff.Word

/-!
# Reading numerals

A numeral is an optional plus sign and then one or more ASCII digits, with any number of zeros in
front, whose value fits a word. It is read from the left, and each character is first checked to be
a digit and then added with checked arithmetic, so of two things wrong the one further left is
reported.
-/

namespace Handoff

/-- Why a text is no numeral. -/
inductive NumeralError
  /-- There is no character. -/
  | empty
  /-- A character is not a digit, or there is no digit behind the sign. -/
  | invalidDigit
  /-- The digits read so far do not fit a word. -/
  | overflow
deriving Repr, DecidableEq

namespace NumeralError

/-- The text of an error. -/
def message : NumeralError → String
  | .empty => "cannot parse integer from empty string"
  | .invalidDigit => "invalid digit found in string"
  | .overflow => "number too large to fit in target type"

/-- The name of the kind of an error. -/
def kind : NumeralError → String
  | .empty => "Empty"
  | .invalidDigit => "InvalidDigit"
  | .overflow => "PosOverflow"

end NumeralError

namespace Numeral

/-- The value of an ASCII digit. -/
def digit? (c : Char) : Option UInt64 :=
  if c.isDigit then some (c.toNat - '0'.toNat).toUInt64 else none

theorem digit?_eq_none_iff {c : Char} : digit? c = none ↔ c.isDigit = false := by
  unfold digit?
  split <;> simp_all

/-- The value of digits that follow others of value `value`. -/
def readDigits (value : UInt64) : List Char → Except NumeralError UInt64
  | [] => .ok value
  | c :: cs =>
    match digit? c with
    | none => .error .invalidDigit
    | some d =>
      match (Word.mul? value 10).bind (Word.add? · d) with
      | none => .error .overflow
      | some value => readDigits value cs

/-- The value of a numeral, given as its characters. -/
def readChars : List Char → Except NumeralError UInt64
  | [] => .error .empty
  | ['+'] => .error .invalidDigit
  | '+' :: digits => readDigits 0 digits
  | digits => readDigits 0 digits

/-- The value of a numeral. -/
def read (s : String) : Except NumeralError UInt64 :=
  readChars s.toList

end Numeral

end Handoff
