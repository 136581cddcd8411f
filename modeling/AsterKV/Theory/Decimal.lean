/-
# Theory.Decimal -- numbers as digit strings

`toDigits` prints a number most significant digit first and without leading
zeros, `ofDigits` is the value of any digit string.  A parse loop that guards
each step by `acc > (bound - d) / 10` stops exactly when the next value would
pass the bound (`guard_iff`), so it never wraps.
-/
import Mathlib.Data.Nat.Digits.Lemmas

namespace Theory.Decimal

set_option autoImplicit false

/-- The value of a digit string read after `acc`. -/
def ofDigitsFrom (acc : Nat) (digits : List Nat) : Nat :=
  digits.foldl (fun acc d => acc * 10 + d) acc

def ofDigits (digits : List Nat) : Nat := ofDigitsFrom 0 digits

def toDigits (n : Nat) : List Nat := if n = 0 then [0] else (Nat.digits 10 n).reverse

@[simp] theorem ofDigitsFrom_nil (acc : Nat) : ofDigitsFrom acc [] = acc := rfl

@[simp] theorem ofDigitsFrom_cons (acc d : Nat) (rest : List Nat) :
    ofDigitsFrom acc (d :: rest) = ofDigitsFrom (acc * 10 + d) rest := rfl

theorem le_ofDigitsFrom (acc : Nat) (digits : List Nat) : acc ≤ ofDigitsFrom acc digits := by
  induction digits generalizing acc with
  | nil => exact le_rfl
  | cons d rest ih =>
      have := ih (acc * 10 + d)
      rw [ofDigitsFrom_cons]
      omega

theorem ofDigitsFrom_reverse (digits : List Nat) :
    ofDigits digits.reverse = Nat.ofDigits 10 digits := by
  rw [ofDigits, ofDigitsFrom, List.foldl_reverse, Nat.ofDigits_eq_foldr]
  congr 1
  funext d acc
  simp only [Nat.cast_id]
  omega

/-- Printing then reading gives the number back. -/
@[simp] theorem ofDigits_toDigits (n : Nat) : ofDigits (toDigits n) = n := by
  unfold toDigits
  split
  · rename_i zero
    rw [zero]
    rfl
  · rw [ofDigitsFrom_reverse, Nat.ofDigits_digits]

/-- Leading zeros do not count. -/
theorem ofDigits_dropWhile_zero (digits : List Nat) :
    ofDigits (digits.dropWhile (· == 0)) = ofDigits digits := by
  induction digits with
  | nil => rfl
  | cons d rest ih =>
      by_cases zero : d = 0
      · rw [List.dropWhile_cons_of_pos (by simp [zero]), ih, zero]
        rfl
      · rw [List.dropWhile_cons_of_neg (by simp [zero])]

/-- Reading then printing drops the leading zeros. -/
theorem toDigits_ofDigits {digits : List Nat} (small : ∀ d ∈ digits, d < 10)
    (pos : ofDigits digits ≠ 0) : toDigits (ofDigits digits) = digits.dropWhile (· == 0) := by
  have same := ofDigits_dropWhile_zero digits
  have value := ofDigitsFrom_reverse (digits.dropWhile (· == 0)).reverse
  rw [List.reverse_reverse, same] at value
  rw [toDigits, if_neg pos, value, Nat.digits_ofDigits 10 (by omega), List.reverse_reverse]
  · intro d member
    exact small d ((List.dropWhile_sublist _).subset (List.mem_reverse.1 member))
  · intro ne
    rw [List.getLast_reverse]
    have first := List.head_dropWhile_not (· == 0) (l := digits) (by simpa using ne)
    simpa using first

theorem toDigits_ne_nil (n : Nat) : toDigits n ≠ [] := by
  unfold toDigits
  split
  · simp
  · rename_i pos
    simp [Nat.digits_eq_nil_iff_eq_zero, pos]

theorem toDigits_lt {n d : Nat} (member : d ∈ toDigits n) : d < 10 := by
  unfold toDigits at member
  split at member
  · simp at member
    omega
  · exact Nat.digits_lt_base (by omega) (List.mem_reverse.1 member)

/-- The guard is exact: the next value fits if and only if it lets it through. -/
theorem guard_iff {bound acc d : Nat} (fits : d ≤ bound) :
    acc > (bound - d) / 10 ↔ bound < acc * 10 + d := by
  omega

end Theory.Decimal
