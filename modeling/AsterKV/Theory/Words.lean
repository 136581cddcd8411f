/-
# Theory.Words -- the maximal runs of a list between separators

`words` is what a split leaves when empty parts are dropped.  A loop that skips
separators and then takes everything up to the next one yields exactly these
(`words_dropWhile`, `words_cons_of_not`).

Two readings of a list of words, both exact:

* `laidOut_iff` -- the words are those of a list exactly when the list is made of them, in
  order, with separators between any two and any number around;
* `words_eq_map_runs` -- they are what stands at the places where a maximal run begins,
  in the order of the places (`mem_runs_iff`, `runs_sorted`).
-/
import Mathlib.Data.List.TakeWhile

namespace Theory.Words

set_option autoImplicit false

universe u

variable {α : Type u} (sep : α → Bool)

/-- The non-empty parts of a split. -/
def words (xs : List α) : List (List α) := (xs.splitOnP sep).filter (!·.isEmpty)

@[simp] theorem words_nil : words sep [] = [] := rfl

theorem ne_nil_of_mem_words {xs word : List α} (member : word ∈ words sep xs) : word ≠ [] := by
  intro empty
  have kept := (List.mem_filter.1 member).2
  simp [empty] at kept

variable {sep}

theorem words_cons_of_sep {a : α} (is : sep a = true) (rest : List α) :
    words sep (a :: rest) = words sep rest := by
  simp [words, List.splitOnP_cons_eq_if_modifyHead, is]

/-- Separators in front are skipped. -/
theorem words_dropWhile (xs : List α) : words sep (xs.dropWhile sep) = words sep xs := by
  induction xs with
  | nil => rfl
  | cons a rest ih =>
      cases is : sep a with
      | true => rw [List.dropWhile_cons_of_pos is, ih, words_cons_of_sep is]
      | false => rw [List.dropWhile_cons_of_neg (by simp [is])]

/-- A run up to a separator, or to the end, is a word. -/
theorem words_append {word : List α} (clean : ∀ a ∈ word, sep a = false) (some : word ≠ [])
    {rest : List α} (ended : ∀ a ∈ rest.head?, sep a = true) :
    words sep (word ++ rest) = word :: words sep rest := by
  cases rest with
  | nil =>
      rw [List.append_nil, words, List.splitOnP_eq_singleton clean]
      simp [some]
  | cons a rest =>
      have is : sep a = true := ended a (by simp)
      rw [words, List.splitOnP_append_cons_of_forall_mem clean a is, words_cons_of_sep is]
      simp [words, some]

/-- What is no separator starts a word. -/
theorem words_cons_of_not {a : α} (not : sep a = false) (rest : List α) :
    words sep (a :: rest) =
      (a :: rest).takeWhile (!sep ·) :: words sep ((a :: rest).dropWhile (!sep ·)) := by
  have clean : ∀ b ∈ (a :: rest).takeWhile (!sep ·), sep b = false := by
    intro b member
    have kept := List.mem_takeWhile_imp member
    simpa using kept
  have some : (a :: rest).takeWhile (!sep ·) ≠ [] := by
    rw [List.takeWhile_cons_of_pos (by simp [not])]
    exact List.cons_ne_nil _ _
  have ended : ∀ b ∈ ((a :: rest).dropWhile (!sep ·)).head?, sep b = true := by
    intro b member
    have stopped := List.head?_dropWhile_not (!sep ·) (a :: rest)
    rw [Option.mem_def.1 member] at stopped
    simpa using stopped
  conv => lhs; rw [← List.takeWhile_append_dropWhile (p := (!sep ·)) (l := a :: rest)]
  exact words_append clean some ended

theorem words_eq_nil {xs : List α} : words sep xs = [] ↔ ∀ a ∈ xs, sep a = true := by
  induction xs with
  | nil => simp
  | cons a rest ih =>
      cases is : sep a with
      | true => simp [words_cons_of_sep is, ih, is]
      | false => simp [words_cons_of_not is, is]

/-- No word crosses a separator. -/
theorem words_append_cons {a : α} (is : sep a = true) (xs ys : List α) :
    words sep (xs ++ a :: ys) = words sep xs ++ words sep ys := by
  rw [words, List.splitOnP_append_cons xs ys is, List.filter_append]
  rfl

/-! ## Layouts -/

variable (sep)

/-- Separators only. -/
def Blank (gap : List α) : Prop := ∀ a ∈ gap, sep a = true

/-- Not empty, and no separator in it. -/
structure IsWord (word : List α) : Prop where
  filled : word ≠ []
  clean : ∀ a ∈ word, sep a = false

/-- The words in order, at least one separator between two of them, any number around. -/
inductive LaidOut : List (List α) → List α → Prop
  | none {gap : List α} (blank : Blank sep gap) : LaidOut [] gap
  | last {before word after : List α} (blank : Blank sep before) (isWord : IsWord sep word)
      (trailing : Blank sep after) : LaidOut [word] (before ++ word ++ after)
  | more {before word gap rest : List α} {words : List (List α)} (blank : Blank sep before)
      (isWord : IsWord sep word) (between : Blank sep gap) (apart : gap ≠ [])
      (laidOut : LaidOut words rest) : LaidOut (word :: words) (before ++ word ++ gap ++ rest)

variable {sep}

theorem words_append_of_blank {gap : List α} (blank : Blank sep gap) (rest : List α) :
    words sep (gap ++ rest) = words sep rest := by
  induction gap with
  | nil => rfl
  | cons a gap ih =>
      rw [List.cons_append, words_cons_of_sep (blank a List.mem_cons_self)]
      exact ih fun b member => blank b (List.mem_cons_of_mem _ member)

/-- Separators behind a list add no words. -/
theorem words_append_blank (xs : List α) {gap : List α} (blank : Blank sep gap) :
    words sep (xs ++ gap) = words sep xs := by
  cases gap with
  | nil => rw [List.append_nil]
  | cons a gap =>
      have rest : words sep gap = [] :=
        words_eq_nil.2 fun b member => blank b (List.mem_cons_of_mem _ member)
      rw [words_append_cons (blank a List.mem_cons_self), rest, List.append_nil]

/-- A layout has the words it lays out. -/
theorem words_of_laidOut {ws : List (List α)} {xs : List α} (laidOut : LaidOut sep ws xs) :
    words sep xs = ws := by
  induction laidOut with
  | none blank => exact words_eq_nil.2 blank
  | last blank isWord trailing =>
      rw [List.append_assoc, words_append_of_blank blank]
      have ended : ∀ a ∈ (List.head? _), sep a = true := fun a member =>
        trailing a (List.mem_of_mem_head? member)
      rw [words_append isWord.clean isWord.filled ended, words_eq_nil.2 trailing]
  | more blank isWord between apart laidOut ih =>
      rw [List.append_assoc, List.append_assoc, words_append_of_blank blank]
      rw [words_append isWord.clean isWord.filled, words_append_of_blank between, ih]
      obtain ⟨first, gap, rfl⟩ := List.exists_cons_of_ne_nil apart
      intro a member
      rw [List.cons_append, List.head?_cons, Option.mem_some_iff] at member
      exact member ▸ between first List.mem_cons_self

/-- Separators in front of a layout leave it one. -/
theorem LaidOut.cons_of_sep {ws : List (List α)} {xs : List α} {a : α} (is : sep a = true)
    (laidOut : LaidOut sep ws xs) : LaidOut sep ws (a :: xs) := by
  have longer : ∀ {gap : List α}, Blank sep gap → Blank sep (a :: gap) := fun blank =>
    List.forall_mem_cons.2 ⟨is, blank⟩
  cases laidOut with
  | none blank => exact .none (longer blank)
  | last blank isWord trailing => exact .last (longer blank) isWord trailing
  | more blank isWord between apart laidOut =>
      exact .more (longer blank) isWord between apart laidOut

/-- A list is a layout of its words. -/
theorem laidOut_words (xs : List α) : LaidOut sep (words sep xs) xs := by
  induction h : xs.length using Nat.strong_induction_on generalizing xs with
  | _ n ih =>
  cases xs with
  | nil => exact .none fun a member => absurd member List.not_mem_nil
  | cons a rest =>
      cases is : sep a with
      | true =>
          rw [words_cons_of_sep is]
          exact (ih rest.length (by rw [← h]; simp) rest rfl).cons_of_sep is
      | false =>
          have whole := List.takeWhile_append_dropWhile (p := (!sep ·)) (l := a :: rest)
          have stopped := List.head?_dropWhile_not (!sep ·) (a :: rest)
          rw [words_cons_of_not is]
          have word : IsWord sep ((a :: rest).takeWhile (!sep ·)) := by
            refine ⟨?_, fun b member => by simpa using List.mem_takeWhile_imp member⟩
            rw [List.takeWhile_cons_of_pos (by simp [is])]
            exact List.cons_ne_nil _ _
          have nothing : Blank sep ([] : List α) := fun b member => absurd member List.not_mem_nil
          generalize (a :: rest).takeWhile (!sep ·) = first at whole word ⊢
          generalize (a :: rest).dropWhile (!sep ·) = behind at whole stopped ⊢
          cases behind with
          | nil =>
              have alone := LaidOut.last nothing word nothing
              rwa [List.nil_append, whole] at alone
          | cons b more =>
              have ends : sep b = true := by simpa using stopped
              have shorter : more.length < n := by
                have lengths := congrArg List.length whole
                simp only [List.length_append, List.length_cons] at lengths h
                omega
              have later := ih more.length shorter more rfl
              have between : Blank sep [b] := fun c member => by
                rwa [List.mem_singleton.1 member]
              have all := LaidOut.more nothing word between (List.cons_ne_nil _ _) later
              rw [words_cons_of_sep ends]
              rwa [List.nil_append, List.append_assoc, List.singleton_append, whole] at all

/-- **The words of a list are the ones it lays out.** -/
theorem laidOut_iff {ws : List (List α)} {xs : List α} :
    LaidOut sep ws xs ↔ words sep xs = ws :=
  ⟨words_of_laidOut, fun same => same ▸ laidOut_words xs⟩

/-- Every laid out word is one. -/
theorem LaidOut.isWord {ws : List (List α)} {xs : List α} (laidOut : LaidOut sep ws xs) :
    ∀ word ∈ ws, IsWord sep word := by
  induction laidOut with
  | none blank => exact fun word member => absurd member List.not_mem_nil
  | last blank isWord trailing => exact List.forall_mem_singleton.2 isWord
  | more blank isWord between apart laidOut ih => exact List.forall_mem_cons.2 ⟨isWord, ih⟩

/-! ## Runs -/

variable (sep)

/-- A run without separators that no separator-free run contains, and where it begins. -/
def MaximalRun (xs : List α) (start : Nat) (word : List α) : Prop :=
  ∃ before after, xs = before ++ word ++ after ∧ before.length = start ∧ IsWord sep word ∧
    (∀ a ∈ before.getLast?, sep a = true) ∧ (∀ a ∈ after.head?, sep a = true)

/-- The maximal runs of what follows `start` elements; the first may begin at once only if
no run is `open`. -/
def runsFrom : Bool → Nat → List α → List (Nat × List α)
  | _, _, [] => []
  | isOpen, start, a :: rest =>
      if sep a then runsFrom false (start + 1) rest
      else if isOpen then runsFrom true (start + 1) rest
      else (start, (a :: rest).takeWhile (!sep ·)) :: runsFrom true (start + 1) rest

def runs (xs : List α) : List (Nat × List α) := runsFrom sep false 0 xs

/-- A place where a maximal run begins, `start` elements into a list: that of the run still
`open` does not count. -/
def RunsAt (isOpen : Bool) (start : Nat) (xs : List α) (place : Nat) (word : List α) : Prop :=
  ∃ before after, xs = before ++ word ++ after ∧ start + before.length = place ∧
    IsWord sep word ∧ (before = [] → isOpen = false) ∧
    (∀ a ∈ before.getLast?, sep a = true) ∧ (∀ a ∈ after.head?, sep a = true)

variable {sep}

theorem map_runsFrom (isOpen : Bool) (start : Nat) (xs : List α) :
    (runsFrom sep isOpen start xs).map Prod.snd =
      words sep (if isOpen then xs.dropWhile (!sep ·) else xs) := by
  induction xs generalizing isOpen start with
  | nil => cases isOpen <;> rfl
  | cons a rest ih =>
      cases is : sep a with
      | true =>
          rw [runsFrom, if_pos is, ih]
          cases isOpen with
          | true => simp [is, words_cons_of_sep is]
          | false => simp [words_cons_of_sep is]
      | false =>
          cases isOpen with
          | true =>
              rw [runsFrom, if_neg (by simp [is]), if_pos rfl, ih]
              simp [is]
          | false =>
              rw [runsFrom, if_neg (by simp [is]), if_neg (by simp), List.map_cons, ih]
              simp [words_cons_of_not is, is]

theorem words_eq_map_runs (xs : List α) : words sep xs = (runs sep xs).map Prod.snd :=
  (map_runsFrom false 0 xs).symm

theorem le_of_mem_runsFrom {isOpen : Bool} {start : Nat} {xs : List α} :
    ∀ run ∈ runsFrom sep isOpen start xs, start ≤ run.1 := by
  induction xs generalizing isOpen start with
  | nil => exact fun run member => absurd member List.not_mem_nil
  | cons a rest ih =>
      intro run member
      rw [runsFrom] at member
      split at member
      · have := ih run member
        omega
      · split at member
        · have := ih run member
          omega
        · rcases List.mem_cons.1 member with rfl | later
          · exact Nat.le_refl _
          · have := ih run later
            omega

/-- The runs are listed where they begin. -/
theorem runs_sorted (xs : List α) :
    (runs sep xs).Pairwise fun first second => first.1 < second.1 := by
  suffices every : ∀ isOpen start, (runsFrom sep isOpen start xs).Pairwise
      fun first second => first.1 < second.1 from every false 0
  induction xs with
  | nil => exact fun _ _ => List.Pairwise.nil
  | cons a rest ih =>
      intro isOpen start
      rw [runsFrom]
      split
      · exact ih _ _
      · split
        · exact ih _ _
        · refine List.Pairwise.cons (fun run member => ?_) (ih _ _)
          have := le_of_mem_runsFrom run member
          show start < run.1
          omega

/-- A run begins at the first element, or later. -/
theorem runsAt_cons_iff {isOpen : Bool} {start place : Nat} {word rest : List α} {a : α} :
    RunsAt sep isOpen start (a :: rest) place word ↔
      (sep a = false ∧ isOpen = false ∧ start = place ∧ word = (a :: rest).takeWhile (!sep ·)) ∨
        RunsAt sep (!sep a) (start + 1) rest place word := by
  constructor
  · rintro ⟨before, after, shape, place, isWord, first, last, next⟩
    cases before with
    | nil =>
        obtain ⟨b, more, rfl⟩ := List.exists_cons_of_ne_nil isWord.filled
        have same : a = b := (List.cons.inj shape).1
        have cleanFirst : sep a = false := same ▸ isWord.clean b List.mem_cons_self
        have taken : (a :: rest).takeWhile (!sep ·) = b :: more := by
          have kept : ∀ c ∈ b :: more, (!sep c) = true := fun c member => by
            simp [isWord.clean c member]
          rw [shape, List.nil_append, List.takeWhile_append_of_pos kept]
          cases after with
          | nil => simp
          | cons c after => simp [next c rfl]
        exact Or.inl ⟨cleanFirst, first rfl, place, taken.symm⟩
    | cons b before =>
        obtain ⟨rfl, tail⟩ := List.cons.inj shape
        refine Or.inr ⟨before, after, tail, ?_, isWord, ?_, ?_, next⟩
        · rw [List.length_cons] at place
          omega
        · rintro rfl
          simpa using last
        · intro c member
          refine last c ?_
          rw [List.getLast?_cons_of_ne_nil fun empty => ?_]
          · exact member
          · rw [empty] at member
            cases member
  · rintro (⟨clean, notOpen, rfl, rfl⟩ | ⟨before, after, rfl, place, isWord, first, last, next⟩)
    · have stopped := List.head?_dropWhile_not (!sep ·) (a :: rest)
      refine ⟨[], (a :: rest).dropWhile (!sep ·), ?_, rfl, ⟨?_, ?_⟩, fun _ => notOpen, by simp,
        ?_⟩
      · rw [List.nil_append, List.takeWhile_append_dropWhile]
      · rw [List.takeWhile_cons_of_pos (by simp [clean])]
        exact List.cons_ne_nil _ _
      · intro b member
        simpa using List.mem_takeWhile_imp member
      · intro b member
        rw [Option.mem_def.1 member] at stopped
        simpa using stopped
    · refine ⟨a :: before, after, rfl, ?_, isWord, fun empty => (List.cons_ne_nil _ _ empty).elim,
        ?_, next⟩
      · rw [List.length_cons]
        omega
      · intro b member
        cases before with
        | nil =>
            rw [List.getLast?_singleton, Option.mem_some_iff] at member
            have ends : sep a = true := by simpa using first rfl
            exact member ▸ ends
        | cons c before =>
            rw [List.getLast?_cons_of_ne_nil (List.cons_ne_nil _ _)] at member
            exact last b member

theorem mem_runsFrom_iff {isOpen : Bool} {start place : Nat} {word xs : List α} :
    (place, word) ∈ runsFrom sep isOpen start xs ↔ RunsAt sep isOpen start xs place word := by
  induction xs generalizing isOpen start with
  | nil =>
      refine ⟨fun member => absurd member List.not_mem_nil, ?_⟩
      rintro ⟨before, after, shape, -, isWord, -⟩
      have empty := List.append_eq_nil_iff.1 shape.symm
      exact absurd (List.append_eq_nil_iff.1 empty.1).2 isWord.filled
  | cons a rest ih =>
      rw [runsAt_cons_iff, runsFrom]
      cases is : sep a with
      | true => simp [ih]
      | false =>
          cases isOpen with
          | true => simp [ih]
          | false =>
              have here : (place, word) = (start, (a :: rest).takeWhile (!sep ·)) ↔
                  start = place ∧ word = (a :: rest).takeWhile (!sep ·) := by
                rw [Prod.mk.injEq, eq_comm (a := place)]
              simp only [Bool.false_eq_true, if_false, List.mem_cons, here, ih, true_and,
                Bool.not_false]

theorem mem_runs_iff {xs : List α} {start : Nat} {word : List α} :
    (start, word) ∈ runs sep xs ↔ MaximalRun sep xs start word := by
  rw [runs, mem_runsFrom_iff, RunsAt, MaximalRun]
  simp

end Theory.Words
