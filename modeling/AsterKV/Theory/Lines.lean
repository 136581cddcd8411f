/-
# Theory.Lines -- lists read piece by piece up to a separator

A reader that repeats "take everything up to the next separator, or to the end"
sees a list as `lines`.  Unlike a plain split it yields nothing after a final
separator, so a list is read back from its pieces only when each piece was
terminated: `Terminated` is that property, `body` the longest terminated prefix
and `tail` what follows it.  The laws say how reading composes with appending,
which is all an append-only file needs, and where a truncation can fall.
-/
import Mathlib.Data.List.DropRight

namespace Theory.Lines

set_option autoImplicit false

universe u

variable {α : Type u} [DecidableEq α] (sep : α)

/-- The pieces a loop that reads up to the next separator sees. -/
def lines : List α → List (List α)
  | [] => []
  | a :: rest =>
      if a = sep then [] :: lines rest
      else match lines rest with
        | [] => [[a]]
        | line :: more => (a :: line) :: more

/-- Empty, or ended by a separator. -/
def Terminated (xs : List α) : Prop := ∀ last ∈ xs.getLast?, last = sep

instance (xs : List α) : Decidable (Terminated sep xs) := by
  unfold Terminated; infer_instance

/-- Everything up to and including the last separator. -/
def body (xs : List α) : List α := xs.rdropWhile (· ≠ sep)

/-- What follows the last separator. -/
def tail (xs : List α) : List α := xs.rtakeWhile (· ≠ sep)

/-! ## Reading -/

@[simp] theorem lines_nil : lines sep ([] : List α) = [] := rfl

theorem lines_cons_sep (rest : List α) : lines sep (sep :: rest) = [] :: lines sep rest := by
  simp [lines]

theorem lines_eq_nil {xs : List α} : lines sep xs = [] ↔ xs = [] := by
  cases xs with
  | nil => simp
  | cons a rest =>
      simp only [lines]
      split
      · simp
      · split <;> simp

theorem lines_eq_cons {xs : List α} (ne : xs ≠ []) :
    ∃ line more, lines sep xs = line :: more :=
  List.exists_cons_of_ne_nil fun empty => ne ((lines_eq_nil sep).1 empty)

/-- A piece up to its separator is read first, then the rest. -/
theorem lines_line {line : List α} (clean : sep ∉ line) (rest : List α) :
    lines sep (line ++ sep :: rest) = line :: lines sep rest := by
  induction line with
  | nil => exact lines_cons_sep sep rest
  | cons a line ih =>
      have ne : a ≠ sep := fun h => clean (h ▸ List.mem_cons_self)
      have ih := ih fun h => clean (List.mem_cons_of_mem _ h)
      simp only [List.cons_append, lines, if_neg ne, ih]

/-- A non-empty end without a separator is one piece. -/
theorem lines_unterminated {xs : List α} (clean : sep ∉ xs) (ne : xs ≠ []) :
    lines sep xs = [xs] := by
  induction xs with
  | nil => exact absurd rfl ne
  | cons a rest ih =>
      have first : a ≠ sep := fun h => clean (h ▸ List.mem_cons_self)
      simp only [lines, if_neg first]
      by_cases last : rest = []
      · simp [last]
      · rw [ih (fun h => clean (List.mem_cons_of_mem _ h)) last]

/-! ## Terminated lists -/

omit [DecidableEq α] in
@[simp] theorem terminated_nil : Terminated sep ([] : List α) := by
  simp [Terminated]

omit [DecidableEq α] in
@[simp] theorem terminated_snoc (xs : List α) (last : α) :
    Terminated sep (xs ++ [last]) ↔ last = sep := by
  simp [Terminated]

omit [DecidableEq α] in
theorem terminated_append {xs ys : List α} (hx : Terminated sep xs) (hy : Terminated sep ys) :
    Terminated sep (xs ++ ys) := by
  rcases List.eq_nil_or_concat' ys with rfl | ⟨ys, last, rfl⟩
  · simpa using hx
  · rw [← List.append_assoc, terminated_snoc]
    exact (terminated_snoc sep ys last).1 hy

omit [DecidableEq α] in
theorem terminated_of_cons {a : α} {rest : List α} (ne : rest ≠ [])
    (terminated : Terminated sep (a :: rest)) : Terminated sep rest := by
  intro last member
  refine terminated last ?_
  rw [List.getLast?_cons_of_ne_nil ne]
  exact member

omit [DecidableEq α] in
theorem terminated_flatten {pieces : List (List α)} (each : ∀ piece ∈ pieces, Terminated sep piece) :
    Terminated sep pieces.flatten := by
  induction pieces with
  | nil => simp
  | cons piece pieces ih =>
      rw [List.flatten_cons]
      exact terminated_append sep (each piece List.mem_cons_self)
        (ih fun p member => each p (List.mem_cons_of_mem _ member))

/-- **Appending to a terminated list appends to what is read.** -/
theorem lines_append {xs : List α} (terminated : Terminated sep xs) (ys : List α) :
    lines sep (xs ++ ys) = lines sep xs ++ lines sep ys := by
  induction xs with
  | nil => rfl
  | cons a rest ih =>
      by_cases last : rest = []
      · subst last
        have is : a = sep := terminated a (by simp)
        subst is
        simp [lines_cons_sep]
      · have restTerminated := terminated_of_cons sep last terminated
        obtain ⟨line, more, shape⟩ := lines_eq_cons sep last
        simp only [List.cons_append, lines, ih restTerminated, shape]
        split <;> rfl

/-! ## Body and tail -/

theorem body_append_tail (xs : List α) : body sep xs ++ tail sep xs = xs := by
  simp only [body, tail, List.rdropWhile, List.rtakeWhile, ← List.reverse_append,
    List.takeWhile_append_dropWhile, List.reverse_reverse]

theorem body_terminated (xs : List α) : Terminated sep (body sep xs) := by
  intro last member
  have ne : body sep xs ≠ [] := fun h => by simp [h] at member
  have stops := List.rdropWhile_last_not (fun a => decide (a ≠ sep)) xs ne
  rw [List.getLast?_eq_some_getLast ne, Option.mem_some_iff] at member
  have same : last = (List.rdropWhile (fun a => decide (a ≠ sep)) xs).getLast ne := member.symm
  rw [same]
  simpa using stops

theorem sep_notMem_tail (xs : List α) : sep ∉ tail sep xs := by
  intro member
  have := List.mem_rtakeWhile_imp member
  simp at this

/-- What follows a terminated prefix and holds no separator is the tail. -/
theorem tail_append {xs ys : List α} (terminated : Terminated sep xs) (clean : sep ∉ ys) :
    tail sep (xs ++ ys) = ys := by
  have all : ∀ a ∈ ys.reverse, decide (a ≠ sep) = true := by
    intro a member
    have : a ≠ sep := fun h => clean (h ▸ List.mem_reverse.1 member)
    simpa using this
  unfold tail List.rtakeWhile
  rw [List.reverse_append, List.takeWhile_append_of_pos all]
  rcases List.eq_nil_or_concat' xs with rfl | ⟨xs, last, rfl⟩
  · simp
  · have is := (terminated_snoc sep xs last).1 terminated
    simp [is]

theorem tail_eq_nil {xs : List α} : tail sep xs = [] ↔ Terminated sep xs := by
  constructor
  · intro empty
    have := body_append_tail sep xs
    rw [empty, List.append_nil] at this
    exact this ▸ body_terminated sep xs
  · intro terminated
    have empty : tail sep (xs ++ []) = [] := tail_append sep terminated (by simp)
    rwa [List.append_nil] at empty

/-- What is added without a separator goes to the tail. -/
theorem tail_append_clean {xs ys : List α} (clean : sep ∉ ys) :
    tail sep (xs ++ ys) = tail sep xs ++ ys := by
  have regroup : xs ++ ys = body sep xs ++ (tail sep xs ++ ys) := by
    rw [← List.append_assoc, body_append_tail]
  have cleanAll : sep ∉ tail sep xs ++ ys := by
    rw [List.mem_append, not_or]
    exact ⟨sep_notMem_tail sep xs, clean⟩
  rw [regroup, tail_append sep (body_terminated sep xs) cleanAll]

theorem body_append_clean {xs ys : List α} (clean : sep ∉ ys) :
    body sep (xs ++ ys) = body sep xs := by
  have whole := body_append_tail sep (xs ++ ys)
  rw [tail_append_clean sep clean] at whole
  have split : body sep xs ++ (tail sep xs ++ ys) = xs ++ ys := by
    rw [← List.append_assoc, body_append_tail]
  exact List.append_cancel_right (whole.trans split.symm)

theorem body_of_terminated {xs : List α} (terminated : Terminated sep xs) : body sep xs = xs := by
  have whole := body_append_tail sep xs
  rwa [(tail_eq_nil sep).2 terminated, List.append_nil] at whole

/-- **Appending to a terminated list adds to the tail and to the body on their own.** -/
theorem tail_append_terminated {xs : List α} (terminated : Terminated sep xs) (ys : List α) :
    tail sep (xs ++ ys) = tail sep ys := by
  have regroup : xs ++ ys = (xs ++ body sep ys) ++ tail sep ys := by
    rw [List.append_assoc, body_append_tail]
  rw [regroup]
  exact tail_append sep (terminated_append sep terminated (body_terminated sep ys))
    (sep_notMem_tail sep ys)

theorem body_append {xs : List α} (terminated : Terminated sep xs) (ys : List α) :
    body sep (xs ++ ys) = xs ++ body sep ys := by
  have whole := body_append_tail sep (xs ++ ys)
  rw [tail_append_terminated sep terminated] at whole
  have split : (xs ++ body sep ys) ++ tail sep ys = xs ++ ys := by
    rw [List.append_assoc, body_append_tail]
  exact List.append_cancel_right (whole.trans split.symm)

theorem body_of_clean {xs : List α} (clean : sep ∉ xs) : body sep xs = [] := by
  have onlyTail : body sep ([] ++ xs) = body sep [] := body_append_clean sep clean
  simpa [body] using onlyTail

/-- The pieces of a terminated list, each written with its separator, are the list. -/
theorem flatten_lines {xs : List α} (terminated : Terminated sep xs) :
    ((lines sep xs).map (· ++ [sep])).flatten = xs := by
  induction xs with
  | nil => rfl
  | cons a rest ih =>
      by_cases last : rest = []
      · subst last
        have is : a = sep := terminated a (by simp)
        subst is
        simp [lines]
      · have restTerminated := terminated_of_cons sep last terminated
        obtain ⟨line, more, shape⟩ := lines_eq_cons sep last
        have ih := ih restTerminated
        rw [shape] at ih
        simp only [lines, shape]
        split
        · next is => simpa [is] using ih
        · simpa using ih

/-! ## Splitting at every separator -/

/-- A split has one part more than there are separators. -/
theorem length_splitOn (xs : List α) : (xs.splitOn sep).length = xs.count sep + 1 := by
  induction xs with
  | nil => rfl
  | cons a rest ih =>
      rw [List.splitOn_cons_eq_if_modifyHead]
      by_cases is : a = sep
      · simp [is, ih]
      · simp [is, ih]

/-- No separator is left in a part. -/
theorem notMem_of_mem_splitOn {xs part : List α} (member : part ∈ xs.splitOn sep) : sep ∉ part := by
  induction xs generalizing part with
  | nil =>
      rw [List.splitOn_nil, List.mem_singleton] at member
      rw [member]
      exact List.not_mem_nil
  | cons a rest ih =>
      have some : rest.splitOn sep ≠ [] := List.splitOn_ne_nil sep rest
      obtain ⟨first, more, shape⟩ := List.exists_cons_of_ne_nil some
      rw [shape] at ih
      rw [List.splitOn_cons_eq_if_modifyHead, shape] at member
      split at member
      · rcases List.mem_cons.1 member with rfl | later
        · exact List.not_mem_nil
        · exact ih later
      · next isOther =>
        rcases List.mem_cons.1 member with rfl | later
        · rw [List.mem_cons, not_or]
          exact ⟨fun same => isOther (by simp [same]), ih List.mem_cons_self⟩
        · exact ih (List.mem_cons_of_mem _ later)

/-- The parts of a split, without an empty one at the end. -/
def withoutLastEmpty (parts : List (List α)) : List (List α) :=
  if parts.getLast? = some [] then parts.dropLast else parts

theorem withoutLastEmpty_cons (part next : List α) (more : List (List α)) :
    withoutLastEmpty (part :: next :: more) = part :: withoutLastEmpty (next :: more) := by
  simp only [withoutLastEmpty, List.getLast?_cons_cons, List.dropLast_cons_cons]
  split <;> rfl

/-- **What is read is the split**, whose last part counts when it is not empty. -/
theorem lines_eq_splitOn (xs : List α) : lines sep xs = withoutLastEmpty (xs.splitOn sep) := by
  induction xs with
  | nil => rfl
  | cons a rest ih =>
      have some : rest.splitOn sep ≠ [] := List.splitOn_ne_nil sep rest
      obtain ⟨part, more, shape⟩ := List.exists_cons_of_ne_nil some
      rw [List.splitOn_cons_eq_if_modifyHead, lines, ih, shape]
      by_cases is : a = sep
      · simp [is, withoutLastEmpty_cons]
      · cases more with
        | nil =>
            by_cases empty : part = []
            · simp [is, withoutLastEmpty, empty]
            · simp [is, withoutLastEmpty, empty]
        | cons next more => simp [is, withoutLastEmpty_cons]

/-! ## Truncation -/

omit [DecidableEq α] in
/-- A proper prefix of a concatenation keeps some whole pieces and cuts the next. -/
theorem take_flatten {pieces : List (List α)} {n : Nat} (short : n < pieces.flatten.length) :
    ∃ whole cut rest m, pieces = whole ++ cut :: rest ∧ m < cut.length ∧
      pieces.flatten.take n = whole.flatten ++ cut.take m := by
  induction pieces generalizing n with
  | nil => simp at short
  | cons piece pieces ih =>
      rw [List.flatten_cons, List.length_append] at short
      by_cases inside : n < piece.length
      · refine ⟨[], piece, pieces, n, rfl, inside, ?_⟩
        rw [List.flatten_cons, List.take_append_of_le_length inside.le]
        simp
      · have rest : n - piece.length < pieces.flatten.length := by omega
        obtain ⟨whole, cut, more, m, rfl, bound, taken⟩ := ih rest
        refine ⟨piece :: whole, cut, more, m, rfl, bound, ?_⟩
        rw [List.flatten_cons, List.take_append, List.take_of_length_le (by omega), taken]
        simp

end Theory.Lines
