/-
# AsterKV.Core.FromChars -- `std::from_chars` on an unsigned number

The longest front of digits is read, however many they are: no sign, no blanks and no
prefix are skipped.  Without a digit nothing matches; a number that the type cannot hold
is out of range.  Either way the variable keeps the 0 it was set to.
-/
import Mathlib.Data.List.TakeWhile
import AsterKV.Core.Decimal

namespace AsterKV.Core

open Theory.Decimal

set_option autoImplicit false

/-- The `std::errc` of a `from_chars` that fails. -/
inductive CharsError where
  | invalidArgument
  | resultOutOfRange
  deriving DecidableEq, Repr

/-- `std::from_chars_result`, `none` for `std::errc {}`, with what the variable then holds. -/
structure FromCharsResult where
  ec : Option CharsError
  ptr : Nat
  parsedValue : Nat
  deriving DecidableEq, Repr

/-- `max` is the largest value of the variable's type. -/
def fromChars (max : Nat) (text : Bytes) : FromCharsResult :=
  let digits := text.takeWhile isDigit
  let value := ofDigits (digitsOf digits)
  if digits.isEmpty then { ec := some .invalidArgument, ptr := 0, parsedValue := 0 }
  else if value > max then
    { ec := some .resultOutOfRange, ptr := digits.length, parsedValue := 0 }
  else { ec := none, ptr := digits.length, parsedValue := value }

/-- **A text is read whole exactly when it is a numeral that fits.** -/
theorem fromChars_whole_iff {max n : Nat} {text : Bytes} :
    ((fromChars max text).ec = none ∧ (fromChars max text).ptr = text.length ∧
      (fromChars max text).parsedValue = n) ↔ Numeral text n ∧ n ≤ max := by
  unfold fromChars
  constructor
  · intro whole
    simp only at whole
    split at whole
    · exact absurd whole.1 (by simp)
    · rename_i filled
      split at whole
      · exact absurd whole.1 (by simp)
      · rename_i fits
        obtain ⟨-, length, value⟩ := whole
        simp only at length value
        have all : text.takeWhile isDigit = text :=
          (List.takeWhile_prefix isDigit).eq_of_length length
        rw [all] at filled fits value
        refine ⟨⟨fun empty => filled (by simp [empty]), ?_, value⟩, by omega⟩
        exact List.takeWhile_eq_self_iff.1 all
  · rintro ⟨numeral, fits⟩
    have all : text.takeWhile isDigit = text := List.takeWhile_eq_self_iff.2 numeral.digits
    have filled : text.isEmpty = false := by simpa using numeral.filled
    have small : ¬ n > max := by omega
    simp only [all, filled, numeral.value, Bool.false_eq_true, if_false, small, and_self]

end AsterKV.Core
