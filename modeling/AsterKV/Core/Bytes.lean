/-
# AsterKV.Core.Bytes -- byte strings

`std::string` and `std::string_view` are byte strings: a value of type `Bytes`
may hold any byte, line feeds and bytes above 127 included.  A `char` literal of
the source is `byte`, a string literal is `bytes`.
-/
import Mathlib.Data.List.Basic

namespace AsterKV.Core

set_option autoImplicit false

/-- The contents of a `std::string`. -/
abbrev Bytes := List UInt8

/-- A `char` literal. -/
def byte (c : Char) : UInt8 := UInt8.ofNat c.toNat

/-- A string literal. -/
def bytes (text : String) : Bytes := text.toList.map byte

def lineFeed : UInt8 := byte '\n'

def carriageReturn : UInt8 := byte '\r'

def space : UInt8 := byte ' '

/-- `value.back() == ch`, false on an empty string. -/
def endsWith (value : Bytes) (ch : UInt8) : Bool := value.getLast? == some ch

theorem endsWith_iff {value : Bytes} {ch : UInt8} :
    endsWith value ch = true ↔ value.getLast? = some ch := by
  simp [endsWith]

@[simp] theorem endsWith_nil (ch : UInt8) : endsWith [] ch = false := rfl

@[simp] theorem endsWith_snoc (value : Bytes) (last ch : UInt8) :
    endsWith (value ++ [last]) ch = (last == ch) := by
  simp [endsWith]

/-- `find`, and what stands before and behind the place it finds. -/
theorem parts_at_first {before : Bytes} {ch : UInt8} (first : ch ∉ before) (after : Bytes) :
    (before ++ ch :: after).idxOf ch = before.length ∧
      (before ++ ch :: after).take before.length = before ∧
      (before ++ ch :: after).drop (before.length + 1) = after := by
  refine ⟨?_, List.take_left, ?_⟩
  · rw [List.idxOf_append_of_notMem first, List.idxOf_cons_self, Nat.add_zero]
  · rw [← List.drop_drop, List.drop_left, List.drop_one, List.tail_cons]

end AsterKV.Core
