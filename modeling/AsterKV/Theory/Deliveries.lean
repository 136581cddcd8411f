/-
# Theory.Deliveries -- pieces put on a stream one after another, whole or cut

A sender puts pieces on a stream; `sent` is the part of a piece that got there, a
prefix of the `whole` piece.  A delivery is orderly when nothing follows a piece
that was cut.  Then the stream is a prefix of what was to be sent
(`flatten_prefix_of_orderly`).  The other rules say what a new piece changes: after
whole pieces only the later ones matter, after a cut piece all the later ones must
be silent.
-/
import Mathlib.Data.List.Basic

namespace Theory.Deliveries

set_option autoImplicit false

universe u v

variable {ι : Type u} {α : Type v} (whole sent : ι → List α)

/-- No piece was cut. -/
def AllWhole (pieces : List ι) : Prop := ∀ piece ∈ pieces, sent piece = whole piece

/-- A piece that was cut is followed by nothing. -/
def Orderly (pieces : List ι) : Prop :=
  pieces.Pairwise fun first second => sent first = whole first ∨ sent second = []

variable {whole sent}

theorem AllWhole.orderly {pieces : List ι} (all : AllWhole whole sent pieces) :
    Orderly whole sent pieces :=
  List.pairwise_of_forall_mem_list fun piece member _ _ => .inl (all piece member)

theorem AllWhole.snoc {pieces : List ι} (all : AllWhole whole sent pieces) {piece : ι}
    (uncut : sent piece = whole piece) : AllWhole whole sent (pieces ++ [piece]) := by
  intro other member
  rcases List.mem_append.1 member with old | new
  · exact all other old
  · rwa [List.mem_singleton.1 new]

/-- After whole pieces only the later pieces matter. -/
theorem AllWhole.orderly_append {pieces : List ι} (all : AllWhole whole sent pieces)
    (later : List ι) : Orderly whole sent (pieces ++ later) ↔ Orderly whole sent later := by
  unfold Orderly
  rw [List.pairwise_append]
  constructor
  · rintro ⟨_, orderly, _⟩
    exact orderly
  · intro orderly
    exact ⟨all.orderly, orderly, fun piece member _ _ => .inl (all piece member)⟩

/-- After a cut piece every later piece must be silent. -/
theorem orderly_cons_of_cut {piece : ι} (cut : sent piece ≠ whole piece) (later : List ι) :
    Orderly whole sent (piece :: later) ↔ ∀ next ∈ later, sent next = [] := by
  unfold Orderly
  rw [List.pairwise_cons]
  constructor
  · rintro ⟨silent, _⟩ next member
    exact (silent next member).resolve_left cut
  · intro silent
    refine ⟨fun next member => .inr (silent next member), ?_⟩
    exact List.pairwise_of_forall_mem_list fun _ _ next member => .inr (silent next member)

/-- **An orderly delivery is a prefix of what was to be sent.** -/
theorem flatten_prefix_of_orderly {pieces : List ι}
    (part : ∀ piece ∈ pieces, sent piece <+: whole piece) (orderly : Orderly whole sent pieces) :
    (pieces.map sent).flatten <+: (pieces.map whole).flatten := by
  induction pieces with
  | nil => exact List.nil_prefix
  | cons piece later ih =>
      rw [List.map_cons, List.flatten_cons, List.map_cons, List.flatten_cons]
      by_cases cut : sent piece = whole piece
      · rw [cut, List.prefix_append_right_inj]
        exact ih (fun next member => part next (List.mem_cons_of_mem _ member)) orderly.of_cons
      · have silent := (orderly_cons_of_cut cut later).1 orderly
        have nothing : (later.map sent).flatten = [] := by
          rw [List.flatten_eq_nil_iff]
          intro text member
          obtain ⟨next, inside, rfl⟩ := List.mem_map.1 member
          exact silent next inside
        rw [nothing, List.append_nil]
        exact (part piece List.mem_cons_self).trans (List.prefix_append _ _)

end Theory.Deliveries
