/-
# Theory.Settings -- a record of settings, and a file of lines that set them

A record has one setting for each key; setting one key leaves the others, and the settings
determine the record (`Record`).  A file is a list of lines; a line is skipped, sets
something, or is invalid (`load`).  The laws need no more than that:

* `load_eq_ok_iff` -- a file is accepted exactly when none of its lines is invalid, and then
  gives the settings of its lines, one after another;
* `load_eq_error_iff` -- otherwise the first invalid line is reported, with its number;
* `get_of_last`, `get_of_none` -- the last line that sets a key decides;
* `load_reordered`, `load_padded` -- lines that set different keys may change places, and
  skipped lines come and go;
* `load_congr` -- only what the lines read as counts;
* `exists_load_iff` -- which records some file gives.
-/
import Mathlib.Data.List.Forall2
import Mathlib.Data.List.Induction

namespace Theory.Settings

set_option autoImplicit false

universe u v w x y z

/-- Settings `A` of a record `S`, one for each key. -/
structure Record (S : Type u) (A : Type v) (K : Type w) where
  key : A → K
  set : S → A → S
  get : S → K → A
  get_set : ∀ s a, get (set s a) (key a) = a
  get_set_of_ne : ∀ s a k, key a ≠ k → get (set s a) k = get s k
  ext : ∀ s t, (∀ k, get s k = get t k) → s = t

variable {S : Type u} {A : Type v} {K : Type w} {L : Type x} {E : Type y}

namespace Record

variable (record : Record S A K)

/-- Settings of different keys may change places. -/
theorem set_comm (s : S) {a b : A} (apart : record.key a ≠ record.key b) :
    record.set (record.set s a) b = record.set (record.set s b) a := by
  apply record.ext
  intro k
  by_cases isA : record.key a = k
  · have notB : record.key b ≠ k := fun isB => apart (isA.trans isB.symm)
    rw [record.get_set_of_ne _ b k notB, ← isA, record.get_set, record.get_set]
  · rw [record.get_set_of_ne _ a k isA]
    by_cases isB : record.key b = k
    · rw [← isB, record.get_set, record.get_set]
    · rw [record.get_set_of_ne _ b k isB, record.get_set_of_ne _ a k isA,
        record.get_set_of_ne _ b k isB]

/-- A key that is not set keeps its setting. -/
theorem get_foldl_of_none {settings : List A} {k : K} (none : ∀ a ∈ settings, record.key a ≠ k)
    (s : S) : record.get (settings.foldl record.set s) k = record.get s k := by
  induction settings generalizing s with
  | nil => rfl
  | cons a rest ih =>
      obtain ⟨first, later⟩ := List.forall_mem_cons.1 none
      rw [List.foldl_cons, ih later, record.get_set_of_ne s a k first]

/-- The last setting of a key is the one the record has. -/
theorem get_foldl_of_last {before after : List A} {a : A}
    (last : ∀ b ∈ after, record.key b ≠ record.key a) (s : S) :
    record.get ((before ++ a :: after).foldl record.set s) (record.key a) = a := by
  rw [List.foldl_append, List.foldl_cons, record.get_foldl_of_none last, record.get_set]

end Record

/-! ## Files -/

/-- The lines set the record one after another, counted from `number`; the first line that
can not be read ends it. -/
def load (record : Record S A K) (read : L → Except E (Option A)) :
    S → Nat → List L → Except (Nat × E) S
  | s, _, [] => .ok s
  | s, number, line :: rest =>
      match read line with
      | .error e => .error (number, e)
      | .ok none => load record read s (number + 1) rest
      | .ok (some a) => load record read (record.set s a) (number + 1) rest

/-- What a line sets. -/
def settingOf (read : L → Except E (Option A)) (line : L) : Option A :=
  match read line with
  | .ok (some a) => some a
  | _ => none

variable {record : Record S A K} {read : L → Except E (Option A)}

theorem settingOf_eq_some_iff {line : L} {a : A} :
    settingOf read line = some a ↔ read line = .ok (some a) := by
  unfold settingOf
  split
  · rename_i b reads
    rw [reads]
    constructor
    · intro same
      rw [Option.some.inj same]
    · intro same
      exact Except.ok.inj same
  · rename_i other
    constructor
    · intro same
      cases same
    · intro reads
      exact absurd reads (other a)

/-- **What is accepted, and what it gives.** -/
theorem load_eq_ok_iff {s t : S} {number : Nat} {lines : List L} :
    load record read s number lines = .ok t ↔
      (∀ line ∈ lines, ∃ setting, read line = .ok setting) ∧
        t = (lines.filterMap (settingOf read)).foldl record.set s := by
  induction lines generalizing s number with
  | nil => simp [load, eq_comm]
  | cons line rest ih =>
      rw [load, List.forall_mem_cons, List.filterMap_cons]
      cases reads : read line with
      | error e => simp
      | ok setting =>
          cases setting with
          | none => simp [ih, settingOf, reads]
          | some a => simp [ih, settingOf, reads]

/-- **What is reported.** -/
theorem load_eq_error_iff {s : S} {number reported : Nat} {lines : List L} {e : E} :
    load record read s number lines = .error (reported, e) ↔
      ∃ before line after, lines = before ++ line :: after ∧
        (∀ earlier ∈ before, ∃ setting, read earlier = .ok setting) ∧
        read line = .error e ∧ reported = number + before.length := by
  induction lines generalizing s number with
  | nil => simp [load]
  | cons line rest ih =>
      -- An earlier invalid line would have to stand in front of this one.
      have first : (∃ before invalid after, line :: rest = before ++ invalid :: after ∧
          (∀ earlier ∈ before, ∃ setting, read earlier = .ok setting) ∧
          read invalid = .error e ∧ reported = number + before.length) ↔
          (read line = .error e ∧ reported = number) ∨
            ((∃ setting, read line = .ok setting) ∧ ∃ before invalid after,
              rest = before ++ invalid :: after ∧
              (∀ earlier ∈ before, ∃ setting, read earlier = .ok setting) ∧
              read invalid = .error e ∧ reported = number + 1 + before.length) := by
        constructor
        · rintro ⟨before, invalid, after, shape, valid, fails, place⟩
          cases before with
          | nil =>
              obtain ⟨rfl, -⟩ := List.cons.inj shape
              exact Or.inl ⟨fails, place⟩
          | cons other before =>
              obtain ⟨rfl, rfl⟩ := List.cons.inj shape
              obtain ⟨here, earlier⟩ := List.forall_mem_cons.1 valid
              refine Or.inr ⟨here, before, invalid, after, rfl, earlier, fails, ?_⟩
              rw [place, List.length_cons]
              omega
        · rintro (⟨fails, place⟩ | ⟨here, before, invalid, after, rfl, valid, fails, place⟩)
          · exact ⟨[], line, rest, rfl, by simp, fails, place⟩
          · refine ⟨line :: before, invalid, after, rfl, List.forall_mem_cons.2 ⟨here, valid⟩, fails,
              ?_⟩
            rw [place, List.length_cons]
            omega
      rw [load, first]
      cases reads : read line with
      | error other => simp [eq_comm, and_comm]
      | ok setting =>
          cases setting with
          | none => simp [ih]
          | some a => simp [ih]

/-- The last line that sets a key decides what is read for it. -/
theorem get_of_last {s t : S} {number : Nat} {before after : List L} {line : L} {a : A}
    (loaded : load record read s number (before ++ line :: after) = .ok t)
    (reads : read line = .ok (some a))
    (last : ∀ later ∈ after, ∀ b, read later = .ok (some b) → record.key b ≠ record.key a) :
    record.get t (record.key a) = a := by
  rw [(load_eq_ok_iff.1 loaded).2, List.filterMap_append,
    List.filterMap_cons_some (settingOf_eq_some_iff.2 reads)]
  refine record.get_foldl_of_last (fun b member => ?_) s
  obtain ⟨later, isLater, setting⟩ := List.mem_filterMap.1 member
  exact last later isLater b (settingOf_eq_some_iff.1 setting)

/-- A key that no line sets keeps what it was before. -/
theorem get_of_none {s t : S} {number : Nat} {lines : List L} {k : K}
    (loaded : load record read s number lines = .ok t)
    (none : ∀ line ∈ lines, ∀ a, read line = .ok (some a) → record.key a ≠ k) :
    record.get t k = record.get s k := by
  rw [(load_eq_ok_iff.1 loaded).2]
  refine record.get_foldl_of_none (fun a member => ?_) s
  obtain ⟨line, isLine, setting⟩ := List.mem_filterMap.1 member
  exact none line isLine a (settingOf_eq_some_iff.1 setting)

/-! ## The records that files give -/

/-- One of these lines sets it. -/
def Settable (read : L → Except E (Option A)) (among : L → Prop) (a : A) : Prop :=
  ∃ line, among line ∧ read line = .ok (some a)

/-- A setting of what is loaded was there before, or one of the lines has it. -/
theorem get_of_load {s t : S} {number : Nat} {lines : List L}
    (loaded : load record read s number lines = .ok t) (k : K) :
    record.get t k = record.get s k ∨ Settable read (· ∈ lines) (record.get t k) := by
  induction lines generalizing s number with
  | nil =>
      cases Except.ok.inj loaded
      exact Or.inl rfl
  | cons line rest ih =>
      have later : Settable read (· ∈ rest) (record.get t k) →
          Settable read (· ∈ line :: rest) (record.get t k) := by
        rintro ⟨other, member, reads⟩
        exact ⟨other, List.mem_cons_of_mem _ member, reads⟩
      rw [load] at loaded
      split at loaded
      · cases loaded
      · exact (ih loaded).imp_right later
      · rename_i a reads
        rcases ih loaded with same | settable
        · by_cases sets : record.key a = k
          · have set : record.get t k = a := by rw [same, ← sets, record.get_set]
            exact Or.inr ⟨line, List.mem_cons_self, by rw [reads, set]⟩
          · exact Or.inl (same.trans (record.get_set_of_ne s a k sets))
        · exact Or.inr (later settable)

/-- The keys at which the records differ are set one after another. -/
theorem exists_load_of_settable {among : L → Prop} {t : S}
    (keyed : ∀ k, record.key (record.get t k) = k) (keys : List K) (s : S) (number : Nat)
    (settable : ∀ k, record.get t k = record.get s k ∨
      k ∈ keys ∧ Settable read among (record.get t k)) :
    ∃ lines, (∀ line ∈ lines, among line) ∧ load record read s number lines = .ok t := by
  induction keys generalizing s number with
  | nil =>
      have same : s = t := record.ext s t fun k => by
        rcases settable k with same | ⟨member, -⟩
        · exact same.symm
        · cases member
      exact ⟨[], by simp, by rw [load, same]⟩
  | cons key rest ih =>
      by_cases same : record.get t key = record.get s key
      · refine ih s number fun k => ?_
        rcases settable k with before | ⟨member, reads⟩
        · exact Or.inl before
        · rcases List.mem_cons.1 member with rfl | later
          · exact Or.inl same
          · exact Or.inr ⟨later, reads⟩
      · obtain ⟨line, isAmong, reads⟩ := ((settable key).resolve_left same).2
        have setHere := record.get_set s (record.get t key)
        rw [keyed] at setHere
        obtain ⟨lines, areAmong, loaded⟩ := ih (record.set s (record.get t key)) (number + 1)
          fun k => by
            by_cases isKey : key = k
            · rw [← isKey, setHere]
              exact Or.inl rfl
            · rw [record.get_set_of_ne s _ k (by rwa [keyed])]
              refine (settable k).imp_right fun ⟨member, reads⟩ => ⟨?_, reads⟩
              exact (List.mem_cons.1 member).resolve_left (Ne.symm isKey)
        exact ⟨line :: lines, List.forall_mem_cons.2 ⟨isAmong, areAmong⟩, by rw [load, reads]; exact loaded⟩

/-- **Which records some file gives**: those whose settings are the ones before or can be
written in a line, with every key to be found in a list. -/
theorem exists_load_iff {among : L → Prop} {s t : S} {number : Nat}
    (keyed : ∀ k, record.key (record.get t k) = k) {keys : List K} (all : ∀ k, k ∈ keys) :
    (∃ lines, (∀ line ∈ lines, among line) ∧ load record read s number lines = .ok t) ↔
      ∀ k, record.get t k = record.get s k ∨ Settable read among (record.get t k) := by
  constructor
  · rintro ⟨lines, areAmong, loaded⟩ k
    refine (get_of_load loaded k).imp_right ?_
    rintro ⟨line, member, reads⟩
    exact ⟨line, areAmong line member, reads⟩
  · intro settable
    exact exists_load_of_settable keyed keys s number fun k =>
      (settable k).imp_right fun written => ⟨all k, written⟩

/-! ## Files that say the same -/

/-- Two lines that do not set the same key. -/
def Apart (record : Record S A K) (read : L → Except E (Option A)) (first second : L) : Prop :=
  ∀ a b, read first = .ok (some a) → read second = .ok (some b) → record.key a ≠ record.key b

/-- Neighbours that are `apart` change places, any number of times. -/
inductive Reordered (apart : L → L → Prop) : List L → List L → Prop
  | refl (lines : List L) : Reordered apart lines lines
  | swap {lines before after : List L} {first second : L} (isApart : apart first second)
      (earlier : Reordered apart lines (before ++ first :: second :: after)) :
      Reordered apart lines (before ++ second :: first :: after)

theorem foldl_swap {first second : L} (apart : Apart record read first second)
    (before after : List L) (s : S) :
    ((before ++ first :: second :: after).filterMap (settingOf read)).foldl record.set s =
      ((before ++ second :: first :: after).filterMap (settingOf read)).foldl record.set s := by
  simp only [List.filterMap_append, List.filterMap_cons]
  cases reads : settingOf read first with
  | none => rfl
  | some a =>
      cases readsSecond : settingOf read second with
      | none => rfl
      | some b =>
          have different := apart a b (settingOf_eq_some_iff.1 reads)
            (settingOf_eq_some_iff.1 readsSecond)
          simp only [List.foldl_append, List.foldl_cons, record.set_comm _ different]

/-- A line moves behind lines it is apart from. -/
theorem reordered_behind {apart : L → L → Prop} {line : L} (before : List L) {passed : List L}
    (after : List L) (isApart : ∀ other ∈ passed, apart line other) :
    Reordered apart (before ++ line :: (passed ++ after)) (before ++ passed ++ line :: after) := by
  induction passed using List.reverseRecOn generalizing after with
  | nil =>
      rw [List.append_nil]
      exact .refl _
  | append_singleton passed last ih =>
      have earlier := ih (last :: after) fun other member =>
        isApart other (List.mem_append_left _ member)
      have moved := Reordered.swap (isApart last (by simp)) earlier
      simpa only [List.append_assoc, List.singleton_append] using moved

/-- **Reordered files are loaded alike.** -/
theorem load_reordered {apart : L → L → Prop}
    (separates : ∀ first second, apart first second → Apart record read first second)
    {lines other : List L} (reordered : Reordered apart lines other) {s t : S} {number : Nat} :
    load record read s number other = .ok t ↔ load record read s number lines = .ok t := by
  induction reordered with
  | refl => rfl
  | swap isApart earlier ih =>
      rw [← ih, load_eq_ok_iff, load_eq_ok_iff, foldl_swap (separates _ _ isApart)]
      simp only [List.forall_mem_append, List.forall_mem_cons]
      refine and_congr_left fun _ => and_congr_right fun _ => ?_
      exact and_left_comm

/-- Files whose lines read the same, one by one, are loaded alike, errors included, also
when their lines are written differently. -/
theorem load_congr {L' : Type z} {read' : L' → Except E (Option A)} {lines : List L}
    {other : List L'} (same : List.Forall₂ (fun line line' => read' line' = read line) lines other)
    (s : S) (number : Nat) :
    load record read' s number other = load record read s number lines := by
  induction same generalizing s number with
  | nil => rfl
  | cons first rest ih => simp only [load, first, ih]

/-- **Files that differ in skipped lines are loaded alike.** -/
theorem load_padded {keeps : L → Bool} (skipped : ∀ line, keeps line = false → read line = .ok none)
    {lines other : List L} (same : other.filter keeps = lines.filter keeps) {s t : S}
    {number : Nat} :
    load record read s number other = .ok t ↔ load record read s number lines = .ok t := by
  have valid : ∀ lines : List L, (∀ line ∈ lines, ∃ setting, read line = .ok setting) ↔
      ∀ line ∈ lines.filter keeps, ∃ setting, read line = .ok setting := by
    intro lines
    simp only [List.mem_filter]
    constructor
    · intro all line member
      exact all line member.1
    · intro kept line member
      cases keep : keeps line with
      | true => exact kept line ⟨member, keep⟩
      | false => exact ⟨none, skipped line keep⟩
  have settings : ∀ lines : List L, lines.filterMap (settingOf read) =
      (lines.filter keeps).filterMap (settingOf read) := by
    intro lines
    induction lines with
    | nil => rfl
    | cons line rest ih =>
        cases keep : keeps line with
        | true => rw [List.filter_cons_of_pos keep, List.filterMap_cons, List.filterMap_cons, ih]
        | false =>
            have nothing : settingOf read line = none := by
              rw [settingOf, skipped line keep]
            rw [List.filter_cons_of_neg (by simp [keep]), List.filterMap_cons_none nothing, ih]
  rw [load_eq_ok_iff, load_eq_ok_iff, valid other, valid lines, settings other, settings lines,
    same]

end Theory.Settings
