/-
# Theory.Ownership -- resources that are acquired, used and released

A trace says what was done with which resource.  It is in order when every resource that
was acquired is released once and left alone from then on (`ReleasedOnce`).  For an owner
of at most one resource at a time `Holds` is the invariant: it grows with what the owner does
in order (`Holds.acquire`, `Holds.use`, `Holds.release`) and ends in `ReleasedOnce` when
nothing is held any more.  Two releases of one resource are never in order
(`not_releasedOnce_of_twice`).
-/
import Mathlib.Data.List.Count

namespace Theory.Ownership

set_option autoImplicit false

universe u

inductive Event (R : Type u) where
  | acquire (r : R)
  | use (r : R)
  | release (r : R)
  deriving DecidableEq, Repr

variable {R : Type u}

def Event.resource : Event R → R
  | acquire r | use r | release r => r

/-- The resource is released in one place, and nothing is done with it behind that. -/
def Released (trace : List (Event R)) (r : R) : Prop :=
  ∃ before after, trace = before ++ .release r :: after ∧ .release r ∉ before ∧
    ∀ event ∈ after, event.resource ≠ r

/-- Every resource that is acquired is released. -/
def ReleasedOnce (trace : List (Event R)) : Prop :=
  ∀ r, .acquire r ∈ trace → Released trace r

theorem Released.append {trace more : List (Event R)} {r : R} (released : Released trace r)
    (others : ∀ event ∈ more, event.resource ≠ r) : Released (trace ++ more) r := by
  obtain ⟨before, after, rfl, first, behind⟩ := released
  refine ⟨before, after ++ more, by simp, first, fun event member => ?_⟩
  rcases List.mem_append.1 member with inAfter | inMore
  · exact behind event inAfter
  · exact others event inMore

theorem not_releasedOnce_of_twice [DecidableEq R] {trace : List (Event R)} {r : R}
    (acquired : .acquire r ∈ trace) (twice : 2 ≤ trace.count (.release r)) :
    ¬ ReleasedOnce trace := by
  intro once
  obtain ⟨before, after, rfl, first, behind⟩ := once r acquired
  have later : .release r ∉ after := fun member => behind _ member rfl
  rw [List.count_append, List.count_cons_self, List.count_eq_zero_of_not_mem first,
    List.count_eq_zero_of_not_mem later] at twice
  omega

/-! ## An owner of one resource -/

/-- What was done so far by an owner that now has `current` and has dealt with all others. -/
structure Holds (trace : List (Event R)) (current : Option R) : Prop where
  acquired : ∀ r, current = some r → .acquire r ∈ trace
  unreleased : ∀ r, current = some r → .release r ∉ trace
  released : ∀ r, .acquire r ∈ trace → current ≠ some r → Released trace r

theorem holds_nil : Holds ([] : List (Event R)) none := by
  constructor <;> simp

theorem Holds.releasedOnce {trace : List (Event R)} (holds : Holds trace none) :
    ReleasedOnce trace := fun r acquired => holds.released r acquired (by simp)

/-- A new resource. -/
theorem Holds.acquire {trace : List (Event R)} (holds : Holds trace none) {r : R}
    (new : ∀ event ∈ trace, event.resource ≠ r) : Holds (trace ++ [.acquire r]) (some r) where
  acquired s same := by
    cases same
    simp
  unreleased s same member := by
    cases same
    simp only [List.mem_append, List.mem_singleton, reduceCtorEq, or_false] at member
    exact new _ member rfl
  released s acquired other := by
    simp only [List.mem_append, List.mem_singleton, Event.acquire.injEq] at acquired
    rcases acquired with before | same
    · refine (holds.released s before (by simp)).append fun event member => ?_
      rw [List.mem_singleton.1 member]
      exact fun same => other (by rw [← same]; rfl)
    · exact absurd (by rw [same]) other

/-- Uses of what is held. -/
theorem Holds.use {trace : List (Event R)} {r : R} (holds : Holds trace (some r)) (n : Nat) :
    Holds (trace ++ List.replicate n (.use r)) (some r) where
  acquired s same := List.mem_append_left _ (holds.acquired s same)
  unreleased s same member := by
    rcases List.mem_append.1 member with before | used
    · exact holds.unreleased s same before
    · cases List.eq_of_mem_replicate used
  released s acquired other := by
    rcases List.mem_append.1 acquired with before | used
    · refine (holds.released s before other).append fun event member => ?_
      rw [List.eq_of_mem_replicate member]
      exact fun same => other (by rw [← same]; rfl)
    · cases List.eq_of_mem_replicate used

theorem Holds.release {trace : List (Event R)} {r : R} (holds : Holds trace (some r)) :
    Holds (trace ++ [.release r]) none where
  acquired s same := by cases same
  unreleased s same := by cases same
  released s acquired _ := by
    simp only [List.mem_append, List.mem_singleton, reduceCtorEq, or_false] at acquired
    by_cases same : s = r
    · subst same
      exact ⟨trace, [], rfl, holds.unreleased s rfl, by simp⟩
    · refine (holds.released s acquired (by simp [Ne.symm same])).append fun event member => ?_
      rw [List.mem_singleton.1 member]
      exact fun isR => same isR.symm

end Theory.Ownership
