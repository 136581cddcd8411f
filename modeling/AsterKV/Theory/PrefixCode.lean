/-
# Theory.PrefixCode -- texts that end where they say

An encoding is prefix-free on some values when none of their texts, with anything after
it, is another's with anything after it.  Then a stream of such texts is the stream of one
list of values (`flatMap_injective`).  Two ways to end a text are enough for most formats:
a separator that does not occur before it (`split_at_sep`), and a length that is known.
-/
import Mathlib.Data.List.Basic

namespace Theory.PrefixCode

set_option autoImplicit false

universe u v

variable {α : Type u} {β : Type v}

/-- The text of a value ends where it says, whatever follows. -/
def PrefixFree (P : α → Prop) (encode : α → List β) : Prop :=
  ∀ a b, P a → P b → ∀ s t, encode a ++ s = encode b ++ t → a = b

/-- **A stream of prefix-free texts has one reading.** -/
theorem flatMap_injective {P : α → Prop} {encode : α → List β} (free : PrefixFree P encode)
    (filled : ∀ a, encode a ≠ []) {first second : List α} (ofFirst : ∀ a ∈ first, P a)
    (ofSecond : ∀ a ∈ second, P a) (same : first.flatMap encode = second.flatMap encode) :
    first = second := by
  induction first generalizing second with
  | nil =>
      cases second with
      | nil => rfl
      | cons b rest =>
          rw [List.flatMap_nil, List.flatMap_cons] at same
          exact absurd (List.append_eq_nil_iff.1 same.symm).1 (filled b)
  | cons a rest ih =>
      cases second with
      | nil =>
          rw [List.flatMap_nil, List.flatMap_cons] at same
          exact absurd (List.append_eq_nil_iff.1 same).1 (filled a)
      | cons b more =>
          obtain ⟨firstOk, restOk⟩ := List.forall_mem_cons.1 ofFirst
          obtain ⟨secondOk, moreOk⟩ := List.forall_mem_cons.1 ofSecond
          rw [List.flatMap_cons, List.flatMap_cons] at same
          cases free a b firstOk secondOk _ _ same
          rw [ih restOk moreOk (List.append_cancel_left same)]

/-- What stands before the first separator is determined, and what comes after it. -/
theorem split_at_sep {sep : β} {x y s t : List β} (inX : sep ∉ x) (inY : sep ∉ y)
    (same : x ++ sep :: s = y ++ sep :: t) : x = y ∧ s = t := by
  induction x generalizing y with
  | nil =>
      cases y with
      | nil => exact ⟨rfl, (List.cons.inj same).2⟩
      | cons b y => exact absurd ((List.cons.inj same).1 ▸ List.mem_cons_self) inY
  | cons a x ih =>
      cases y with
      | nil => exact absurd ((List.cons.inj same).1 ▸ List.mem_cons_self) inX
      | cons b y =>
          obtain ⟨rfl, rest⟩ := List.cons.inj same
          obtain ⟨rfl, after⟩ := ih (fun h => inX (List.mem_cons_of_mem _ h))
            (fun h => inY (List.mem_cons_of_mem _ h)) rest
          exact ⟨rfl, after⟩

end Theory.PrefixCode
