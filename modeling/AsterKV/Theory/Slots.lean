/-
# Theory.Slots -- tables whose entries change one at a time

A table of threads is a list that is extended at its end and changed at one place.  A
vector of slots is a list without duplicates from which places are erased.
-/
import Mathlib.Algebra.Ring.Nat
import Mathlib.Data.List.Nodup

namespace Theory.Slots

set_option autoImplicit false

universe u v

variable {α : Type u} {β : Type v}

/-! ## One entry changes -/

/-- What an entry counts for is exchanged with the entry. -/
theorem countP_set (p : α → Bool) {table : List α} {index : Nat} {old : α}
    (entry : table[index]? = some old) (new : α) :
    (table.set index new).countP p + (p old).toNat = table.countP p + (p new).toNat := by
  induction table generalizing index with
  | nil => cases entry
  | cons first rest ih =>
      cases index with
      | zero =>
          obtain rfl : first = old := by simpa using entry
          simp only [List.set_cons_zero, List.countP_cons]
          cases p first <;> cases p new <;> simp
      | succ index =>
          have later := ih (show rest[index]? = some old from entry)
          simp only [List.set_cons_succ, List.countP_cons]
          omega

/-- What an entry weighs is exchanged with the entry. -/
theorem sum_set (weight : α → Nat) {table : List α} {index : Nat} {old : α}
    (entry : table[index]? = some old) (new : α) :
    ((table.set index new).map weight).sum + weight old = (table.map weight).sum + weight new := by
  induction table generalizing index with
  | nil => cases entry
  | cons first rest ih =>
      cases index with
      | zero =>
          obtain rfl : first = old := by simpa using entry
          simp only [List.set_cons_zero, List.map_cons, List.sum_cons]
          omega
      | succ index =>
          have later := ih (show rest[index]? = some old from entry)
          simp only [List.set_cons_succ, List.map_cons, List.sum_cons]
          omega

/-- What the change keeps does not show. -/
theorem map_set {f : α → β} {table : List α} {index : Nat} {old new : α}
    (entry : table[index]? = some old) (same : f new = f old) :
    (table.set index new).map f = table.map f := by
  obtain ⟨inside, found⟩ := List.getElem?_eq_some_iff.1 entry
  rw [List.map_set, same, ← found]
  have bound : index < (table.map f).length := by simpa using inside
  have here : f table[index] = (table.map f)[index] := by simp
  rw [here, List.set_getElem_self]

/-- An entry of the changed table is the new one, or an old one elsewhere. -/
theorem getElem?_set {table : List α} {index place : Nat} {old new entry : α}
    (inside : table[index]? = some old) (found : (table.set index new)[place]? = some entry) :
    (place = index ∧ entry = new) ∨ (place ≠ index ∧ table[place]? = some entry) := by
  obtain ⟨bound, -⟩ := List.getElem?_eq_some_iff.1 inside
  by_cases here : place = index
  · subst here
    rw [List.getElem?_set_self bound] at found
    exact Or.inl ⟨rfl, (Option.some.inj found).symm⟩
  · rw [List.getElem?_set_ne (fun same => here same.symm)] at found
    exact Or.inr ⟨here, found⟩

/-- An entry of an extended table is an old one or the last. -/
theorem getElem?_concat {table : List α} {place : Nat} {new entry : α}
    (found : (table ++ [new])[place]? = some entry) :
    (place = table.length ∧ entry = new) ∨ (place < table.length ∧ table[place]? = some entry) := by
  rcases Nat.lt_or_ge place table.length with inside | beyond
  · rw [List.getElem?_append_left inside] at found
    exact Or.inr ⟨inside, found⟩
  · rw [List.getElem?_append_right beyond] at found
    obtain ⟨bound, same⟩ := List.getElem?_eq_some_iff.1 found
    have last : place - table.length = 0 := by
      simp only [List.length_singleton] at bound
      omega
    refine Or.inl ⟨by omega, ?_⟩
    rw [← same]
    simp only [last]
    rfl

/-! ## One slot goes -/

theorem mem_eraseIdx {slots : List α} {position : Nat} {slot : α} (nodup : slots.Nodup)
    (here : slots[position]? = some slot) (other : α) :
    other ∈ slots.eraseIdx position ↔ other ∈ slots ∧ other ≠ slot := by
  rw [List.mem_eraseIdx_iff_getElem?]
  constructor
  · rintro ⟨place, elsewhere, found⟩
    refine ⟨List.mem_of_getElem? found, ?_⟩
    rintro rfl
    obtain ⟨inside, there⟩ := List.getElem?_eq_some_iff.1 found
    obtain ⟨bound, same⟩ := List.getElem?_eq_some_iff.1 here
    exact elsewhere ((nodup.getElem_inj_iff).1 (there.trans same.symm))
  · rintro ⟨member, different⟩
    obtain ⟨place, found⟩ := List.mem_iff_getElem?.1 member
    refine ⟨place, ?_, found⟩
    rintro rfl
    rw [found] at here
    exact different (Option.some.inj here)

theorem mem_drop_succ {slots : List α} {position : Nat} {slot : α} (nodup : slots.Nodup)
    (here : slots[position]? = some slot) (other : α) :
    other ∈ slots.drop (position + 1) ↔ other ∈ slots.drop position ∧ other ≠ slot := by
  obtain ⟨bound, same⟩ := List.getElem?_eq_some_iff.1 here
  have split : slots.drop position = slot :: slots.drop (position + 1) := by
    rw [← same]
    exact List.drop_eq_getElem_cons bound
  have distinct : (slots.drop position).Nodup := nodup.sublist (List.drop_sublist _ _)
  rw [split, List.nodup_cons] at distinct
  rw [split, List.mem_cons]
  constructor
  · intro member
    refine ⟨Or.inr member, ?_⟩
    rintro rfl
    exact distinct.1 member
  · rintro ⟨rfl | member, different⟩
    · exact absurd rfl different
    · exact member

end Theory.Slots
