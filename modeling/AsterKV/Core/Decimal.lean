/-
# AsterKV.Core.Decimal -- numbers in text

`std::to_string` on an unsigned number, and the digit loop that
`parseSequenceNumber` and the client's `parseBulkLength` share: only digits, with
a guard before each step so that the 64-bit accumulator never wraps.
-/
import AsterKV.Core.Status
import AsterKV.Theory.Decimal

namespace AsterKV.Core

open Theory.Decimal

set_option autoImplicit false

/-- `std::numeric_limits<std::uint64_t>::max()`. -/
def maxUInt64 : UInt64 := 18446744073709551615

def isDigit (value : UInt8) : Bool := byte '0' ≤ value && value ≤ byte '9'

def digitByte (d : Nat) : UInt8 := UInt8.ofNat (48 + d)

def digitValue (value : UInt8) : UInt64 := (value - byte '0').toUInt64

/-- `std::to_string`. -/
def toDecimal (n : Nat) : Bytes := (toDigits n).map digitByte

/-- The loop over the digits after an empty text was refused. -/
def parseDigits (notNumeric tooLarge : Bytes) : UInt64 → Bytes → Result UInt64
  | result, [] => .success result
  | result, ch :: rest =>
      if !isDigit ch then .failure (.invalidArgument notNumeric)
      else if result > (maxUInt64 - digitValue ch) / 10 then
        .failure (.invalidArgument tooLarge)
      else parseDigits notNumeric tooLarge (result * 10 + digitValue ch) rest

def parseUnsigned (empty notNumeric tooLarge value : Bytes) : Result UInt64 :=
  if value.isEmpty then .failure (.invalidArgument empty)
  else parseDigits notNumeric tooLarge 0 value

/-- The digits a text stands for. -/
def digitsOf (value : Bytes) : List Nat := value.map fun ch => (digitValue ch).toNat

/-! ## Digits -/

theorem isDigit_iff {ch : UInt8} : isDigit ch = true ↔ 48 ≤ ch.toNat ∧ ch.toNat ≤ 57 := by
  have zero : (byte '0').toNat = 48 := by decide
  have nine : (byte '9').toNat = 57 := by decide
  simp only [isDigit, Bool.and_eq_true, decide_eq_true_eq, UInt8.le_iff_toNat_le, zero, nine]

theorem digitValue_toNat {ch : UInt8} (digit : isDigit ch = true) :
    (digitValue ch).toNat = ch.toNat - 48 := by
  have zero : (byte '0').toNat = 48 := by decide
  have low : byte '0' ≤ ch := by
    rw [UInt8.le_iff_toNat_le, zero]
    exact (isDigit_iff.1 digit).1
  rw [digitValue, UInt8.toNat_toUInt64, UInt8.toNat_sub_of_le _ _ low, zero]

theorem digitValue_le {ch : UInt8} (digit : isDigit ch = true) : (digitValue ch).toNat ≤ 9 := by
  have := (isDigit_iff.1 digit).2
  rw [digitValue_toNat digit]
  omega

theorem digitByte_toNat {d : Nat} (small : d < 10) : (digitByte d).toNat = 48 + d := by
  simp only [digitByte, UInt8.toNat_ofNat']
  omega

theorem isDigit_digitByte {d : Nat} (small : d < 10) : isDigit (digitByte d) = true := by
  rw [isDigit_iff, digitByte_toNat small]
  omega

theorem digitValue_digitByte {d : Nat} (small : d < 10) : (digitValue (digitByte d)).toNat = d := by
  rw [digitValue_toNat (isDigit_digitByte small), digitByte_toNat small]
  omega

/-! ## The guarded loop -/

theorem maxUInt64_toNat : maxUInt64.toNat = 2 ^ 64 - 1 := by decide

theorem guard_iff_toNat {result digit : UInt64} (small : digit.toNat ≤ 9) :
    result > (maxUInt64 - digit) / 10 ↔ result.toNat > (2 ^ 64 - 1 - digit.toNat) / 10 := by
  have le : digit ≤ maxUInt64 := by
    rw [UInt64.le_iff_toNat_le, maxUInt64_toNat]
    omega
  have ten : (10 : UInt64).toNat = 10 := by decide
  rw [gt_iff_lt, UInt64.lt_iff_toNat_lt, UInt64.toNat_div, UInt64.toNat_sub_of_le _ _ le,
    maxUInt64_toNat, ten]

theorem step_toNat {result digit : UInt64}
    (fits : result.toNat * 10 + digit.toNat ≤ 2 ^ 64 - 1) :
    (result * 10 + digit).toNat = result.toNat * 10 + digit.toNat := by
  have ten : (10 : UInt64).toNat = 10 := by decide
  rw [UInt64.toNat_add, UInt64.toNat_mul, ten]
  omega

/-- The loop is the library's guarded accumulation, on texts of digits only. -/
theorem parseDigits_eq_success_iff {notNumeric tooLarge : Bytes} {result v : UInt64}
    {value : Bytes} :
    parseDigits notNumeric tooLarge result value = .success v ↔
      (∀ ch ∈ value, isDigit ch = true) ∧
        v.toNat = ofDigitsFrom result.toNat (digitsOf value) := by
  induction value generalizing result with
  | nil =>
      simp only [parseDigits, digitsOf, List.map_nil, ofDigitsFrom_nil, List.not_mem_nil,
        false_imp_iff, implies_true, true_and, UInt64.toNat_inj]
      exact ⟨fun h => (Except.ok.inj h).symm, fun h => h ▸ rfl⟩
  | cons ch rest ih =>
      simp only [parseDigits, digitsOf, List.map_cons, ofDigitsFrom_cons, List.forall_mem_cons]
      by_cases digit : isDigit ch = true
      · have small := digitValue_le digit
        simp only [digit, Bool.not_true, Bool.false_eq_true, if_false, true_and]
        by_cases tooMuch : result > (maxUInt64 - digitValue ch) / 10
        · have grows := le_ofDigitsFrom (result.toNat * 10 + (digitValue ch).toNat) (digitsOf rest)
          have past := (guard_iff (by omega)).1 ((guard_iff_toNat small).1 tooMuch)
          have bound := UInt64.toNat_lt v
          rw [if_pos tooMuch]
          constructor
          · intro h
            cases h
          · rintro ⟨-, same⟩
            rw [digitsOf] at grows
            omega
        · have fits : result.toNat * 10 + (digitValue ch).toNat ≤ 2 ^ 64 - 1 := by
            have : ¬ 2 ^ 64 - 1 < result.toNat * 10 + (digitValue ch).toNat := fun h =>
              tooMuch ((guard_iff_toNat small).2 ((guard_iff (by omega)).2 h))
            omega
          rw [if_neg tooMuch, ih, step_toNat fits, digitsOf]
      · simp only [digit, Bool.false_eq_true, false_and, iff_false]
        intro h
        cases h

/-- A digit string, at least one digit long, and the number it denotes. -/
structure Numeral (text : Bytes) (n : Nat) : Prop where
  filled : text ≠ []
  digits : ∀ ch ∈ text, isDigit ch = true
  value : ofDigits (digitsOf text) = n

/-- What a text parses to: digits only, at least one, and no larger than 64 bits. -/
theorem parseUnsigned_eq_success_iff {empty notNumeric tooLarge value : Bytes} {v : UInt64} :
    parseUnsigned empty notNumeric tooLarge value = .success v ↔
      value ≠ [] ∧ (∀ ch ∈ value, isDigit ch = true) ∧ v.toNat = ofDigits (digitsOf value) := by
  unfold parseUnsigned
  split
  · rename_i h
    constructor
    · intro h
      cases h
    · rintro ⟨ne, -⟩
      exact absurd (List.isEmpty_iff.1 h) ne
  · rename_i h
    have ne : value ≠ [] := fun e => h (by simp [e])
    rw [parseDigits_eq_success_iff]
    simp [ne, ofDigits]

/-! ## Printed numbers -/

theorem toDecimal_ne_nil (n : Nat) : toDecimal n ≠ [] := by
  simp [toDecimal, toDigits_ne_nil]

theorem isDigit_of_mem_toDecimal {n : Nat} {ch : UInt8} (member : ch ∈ toDecimal n) :
    isDigit ch = true := by
  obtain ⟨d, digit, rfl⟩ := List.mem_map.1 member
  exact isDigit_digitByte (toDigits_lt digit)

theorem digitsOf_toDecimal (n : Nat) : digitsOf (toDecimal n) = toDigits n := by
  rw [digitsOf, toDecimal, List.map_map]
  conv => rhs; rw [← List.map_id (toDigits n)]
  exact List.map_congr_left fun d member => digitValue_digitByte (toDigits_lt member)

theorem toDecimal_injective {n m : Nat} (same : toDecimal n = toDecimal m) : n = m := by
  have digits := congrArg digitsOf same
  rw [digitsOf_toDecimal, digitsOf_toDecimal] at digits
  have values := congrArg ofDigits digits
  rwa [ofDigits_toDigits, ofDigits_toDigits] at values

theorem digitByte_digitValue {ch : UInt8} (digit : isDigit ch = true) :
    digitByte (digitValue ch).toNat = ch := by
  have range := isDigit_iff.1 digit
  rw [← UInt8.toNat_inj, digitByte_toNat, digitValue_toNat digit]
  · omega
  · rw [digitValue_toNat digit]
    omega

/-- Printing what a digit text parses to drops its leading zeros. -/
theorem toDecimal_ofDigits {value : Bytes} (digits : ∀ ch ∈ value, isDigit ch = true)
    (pos : ofDigits (digitsOf value) ≠ 0) :
    toDecimal (ofDigits (digitsOf value)) = value.dropWhile (· == byte '0') := by
  have small : ∀ d ∈ digitsOf value, d < 10 := by
    intro d member
    obtain ⟨ch, mem, rfl⟩ := List.mem_map.1 member
    have := digitValue_le (digits ch mem)
    omega
  rw [toDecimal, toDigits_ofDigits small pos]
  clear pos small
  induction value with
  | nil => rfl
  | cons ch rest ih =>
      obtain ⟨digit, digitsRest⟩ := List.forall_mem_cons.1 digits
      have zero : ((digitValue ch).toNat == 0) = (ch == byte '0') := by
        rw [Bool.eq_iff_iff, beq_iff_eq, beq_iff_eq, ← UInt8.toNat_inj, digitValue_toNat digit]
        have range := isDigit_iff.1 digit
        have code : (byte '0').toNat = 48 := by decide
        omega
      rw [digitsOf, List.map_cons, List.dropWhile_cons, List.dropWhile_cons, zero]
      split
      · exact ih digitsRest
      · rw [List.map_cons, digitByte_digitValue digit, List.map_map]
        congr 1
        conv => rhs; rw [← List.map_id rest]
        exact List.map_congr_left fun c member => digitByte_digitValue (digitsRest c member)

/-- A printed number is a numeral. -/
theorem numeral_toDecimal (n : Nat) : Numeral (toDecimal n) n where
  filled := toDecimal_ne_nil n
  digits _ := isDigit_of_mem_toDecimal
  value := by rw [digitsOf_toDecimal, ofDigits_toDigits]

/-- Printing what a numeral denotes drops its leading zeros. -/
theorem Numeral.toDecimal_eq {text : Bytes} {n : Nat} (numeral : Numeral text n) (pos : n ≠ 0) :
    toDecimal n = text.dropWhile (· == byte '0') := by
  have value := numeral.value
  rw [← value] at pos ⊢
  exact toDecimal_ofDigits numeral.digits pos

/-- The guarded loop reads the numerals that fit. -/
theorem parseUnsigned_eq_success_iff_numeral {empty notNumeric tooLarge value : Bytes}
    {v : UInt64} :
    parseUnsigned empty notNumeric tooLarge value = .success v ↔ Numeral value v.toNat := by
  rw [parseUnsigned_eq_success_iff]
  constructor
  · rintro ⟨filled, digits, same⟩
    exact ⟨filled, digits, same.symm⟩
  · intro numeral
    exact ⟨numeral.filled, numeral.digits, numeral.value.symm⟩

/-- **A printed 64-bit number parses back.** -/
theorem parseUnsigned_toDecimal (empty notNumeric tooLarge : Bytes) (n : UInt64) :
    parseUnsigned empty notNumeric tooLarge (toDecimal n.toNat) = .success n :=
  parseUnsigned_eq_success_iff_numeral.2 (numeral_toDecimal n.toNat)

end AsterKV.Core
