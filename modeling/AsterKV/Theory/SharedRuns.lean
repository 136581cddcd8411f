/-
# Theory.SharedRuns -- one machine, used by many clients

The inputs of a shared run carry the client they are from.  `told` is what one client
sends and gets in it.  A caller that takes a new name for each of its calls is told what a
machine among others answers, when its calls stand in order (`exists_weave`).
-/
import AsterKV.Theory.Machine
import Mathlib.Data.List.Forall2

namespace Theory.Machine

set_option autoImplicit false

universe u v w

variable {S T : Type u} {I : Type v} {O P : Type w} {C : Type v} [DecidableEq C]

/-- What a client sends and gets in a shared run. -/
def told (step : S → I → O × S) (client : C) : S → List (C × I) → List (I × O)
  | _, [] => []
  | s, (sender, i) :: rest =>
      let (output, next) := step s i
      if sender = client then (i, output) :: told step client next rest
      else told step client next rest

variable {step : S → I → O × S} {client : C}

theorem told_append (s : S) (first second : List (C × I)) :
    told step client s (first ++ second) =
      told step client s first ++
        told step client (after step s (first.map Prod.snd)) second := by
  induction first generalizing s with
  | nil => rfl
  | cons entry rest ih =>
      obtain ⟨sender, i⟩ := entry
      simp only [List.cons_append, told, List.map_cons, after_cons, ih]
      split <;> rfl

/-- What others send tells the client nothing. -/
theorem told_of_ne {entries : List (C × I)} (others : ∀ entry ∈ entries, entry.1 ≠ client) (s : S) :
    told step client s entries = [] := by
  induction entries generalizing s with
  | nil => rfl
  | cons entry rest ih =>
      obtain ⟨sender, i⟩ := entry
      have elsewhere : sender ≠ client := others _ List.mem_cons_self
      simp only [told, if_neg elsewhere]
      exact ih (fun other member => others other (List.mem_cons_of_mem _ member)) _

theorem ne_of_told_nil {s : S} {entries : List (C × I)} (silent : told step client s entries = []) :
    ∀ entry ∈ entries, entry.1 ≠ client := by
  induction entries generalizing s with
  | nil => exact fun _ member => absurd member List.not_mem_nil
  | cons entry rest ih =>
      obtain ⟨sender, i⟩ := entry
      simp only [told] at silent
      split at silent
      · cases silent
      · next elsewhere =>
          intro other member
          rcases List.mem_cons.1 member with rfl | later
          · exact elsewhere
          · exact ih silent other later

/-- A client that sends one input is told what the machine answers at its place. -/
theorem split_of_told {s : S} {entries : List (C × I)} {i : I} {o : O}
    (one : told step client s entries = [(i, o)]) :
    ∃ front back, entries = front ++ (client, i) :: back ∧
      (∀ entry ∈ front, entry.1 ≠ client) ∧ (∀ entry ∈ back, entry.1 ≠ client) ∧
      o = (step (after step s (front.map Prod.snd)) i).1 := by
  induction entries generalizing s with
  | nil => cases one
  | cons entry rest ih =>
      obtain ⟨sender, j⟩ := entry
      simp only [told] at one
      split at one
      · next own =>
          obtain ⟨same, silent⟩ := List.cons.inj one
          obtain ⟨rfl, rfl⟩ := Prod.mk.inj same
          refine ⟨[], rest, ?_, fun _ member => absurd member List.not_mem_nil, ?_, rfl⟩
          · rw [own]
            rfl
          · exact ne_of_told_nil silent
      · next elsewhere =>
          obtain ⟨front, back, rfl, before, behind, answer⟩ := ih one
          refine ⟨(sender, j) :: front, back, rfl, fun other member => ?_, behind, answer⟩
          rcases List.mem_cons.1 member with rfl | later
          · exact elsewhere
          · exact before other later

/-- Machines that answer alike, up to a translation, tell alike. -/
theorem told_simulation {other : T → I → P × T} {R : S → T → Prop} {translate : P → O}
    (simulates : ∀ s t i, R s t →
      (step s i).1 = translate (other t i).1 ∧ R (step s i).2 (other t i).2)
    {s : S} {t : T} (start : R s t) (entries : List (C × I)) :
    told step client s entries =
        (told other client t entries).map (fun told => (told.1, translate told.2)) ∧
      R (after step s (entries.map Prod.snd)) (after other t (entries.map Prod.snd)) := by
  induction entries generalizing s t with
  | nil => exact ⟨rfl, start⟩
  | cons entry rest ih =>
      obtain ⟨sender, i⟩ := entry
      obtain ⟨output, next⟩ := simulates s t i start
      obtain ⟨outputs, last⟩ := ih next
      refine ⟨?_, last⟩
      simp only [told]
      split
      · rw [List.map_cons, outputs, output]
      · exact outputs

/-! ## A caller among others -/

/-- Each input comes after those that others send before it. -/
def among (step : S → I → O × S) (state : List (List I) × S) (i : I) : O × (List (List I) × S) :=
  let (output, next) := step (after step state.2 (state.1.headD [])) i
  (output, state.1.tail, next)

/-- What others send before each of the own entries, and these. -/
def weave {A : Type v} : List (List A) → List A → List A
  | first :: others, own :: rest => first ++ own :: weave others rest
  | _, _ => []

theorem mem_weave_of_mem {A : Type v} {others : List (List A)} {own : List A}
    (count : others.length = own.length) {a : A} (member : a ∈ others.flatten) :
    a ∈ weave others own := by
  induction others generalizing own with
  | nil => cases member
  | cons first others ih =>
      cases own with
      | nil => cases count
      | cons mine own =>
          rw [weave]
          rcases List.mem_append.1 (List.flatten_cons ▸ member) with here | later
          · exact List.mem_append_left _ here
          · have left := ih (Nat.succ.inj count) later
            exact List.mem_append_right _ (List.mem_cons_of_mem _ left)

/-- No entry of the second client stands before one of the first. -/
def Ordered (entries : List (C × I)) (first second : C) : Prop :=
  first ≠ second ∧ entries.Pairwise fun entry later => ¬ (entry.1 = second ∧ later.1 = first)

/-- **Calls in order, each under a name of its own.**  They stand in the shared run with the
entries of others between them, and are told what the machine among these answers. -/
theorem exists_weave (calls : List (C × I)) {s : S} {entries : List (C × I)}
    (single : ∀ call ∈ calls, ∃ o, told step call.1 s entries = [(call.2, o)])
    (ordered : (calls.map Prod.fst).Pairwise (Ordered entries)) :
    ∃ others last, entries = weave others calls ++ last ∧ others.length = calls.length ∧
      (∀ entry ∈ others.flatten ++ last, entry.1 ∉ calls.map Prod.fst) ∧
      List.Forall₂ (fun call o => told step call.1 s entries = [(call.2, o)]) calls
        (run (among step) (others.map (List.map Prod.snd), s) (calls.map Prod.snd)).1 := by
  induction calls generalizing s entries with
  | nil => exact ⟨[], entries, rfl, rfl, fun _ _ => List.not_mem_nil, .nil⟩
  | cons call calls ih =>
      obtain ⟨client, i⟩ := call
      obtain ⟨o, one⟩ := single _ List.mem_cons_self
      obtain ⟨front, back, rfl, before, behind, answer⟩ := split_of_told one
      obtain ⟨first, laters⟩ := List.pairwise_cons.1 ordered
      -- the later calls stand behind this one
      have rest : ∀ later ∈ calls, (∀ entry ∈ front, entry.1 ≠ later.1) ∧
          told step later.1 s (front ++ (client, i) :: back) =
            told step later.1 (step (after step s (front.map Prod.snd)) i).2 back := by
        intro later member
        obtain ⟨ne, order⟩ := first later.1 (List.mem_map_of_mem member)
        have absent : ∀ entry ∈ front, entry.1 ≠ later.1 := by
          intro entry inFront own
          exact (List.pairwise_append.1 order).2.2 entry inFront _ List.mem_cons_self ⟨own, rfl⟩
        refine ⟨absent, ?_⟩
        rw [told_append, told_of_ne absent, List.nil_append]
        simp only [told, if_neg ne]
      have still : ∀ later ∈ calls, ∃ o,
          told step later.1 (step (after step s (front.map Prod.snd)) i).2 back = [(later.2, o)] := by
        intro later member
        rw [← (rest later member).2]
        exact single later (List.mem_cons_of_mem _ member)
      have behindOrdered : (calls.map Prod.fst).Pairwise (Ordered back) :=
        laters.imp fun pair => ⟨pair.1, ((List.pairwise_append.1 pair.2).2.1).of_cons⟩
      obtain ⟨others, last, rfl, count, foreign, answers⟩ := ih still behindOrdered
      refine ⟨front :: others, last, ?_, congrArg (· + 1) count, ?_, .cons ?_ ?_⟩
      · simp [weave]
      · intro entry member own
        rw [List.flatten_cons, List.append_assoc] at member
        rw [List.map_cons] at own
        rcases List.mem_append.1 member with inFront | later
        · rcases List.mem_cons.1 own with own | own
          · exact before entry inFront own
          · obtain ⟨call, member, same⟩ := List.mem_map.1 own
            exact (rest call member).1 entry inFront same.symm
        · rcases List.mem_cons.1 own with own | own
          · refine behind entry ?_ own
            exact List.mem_append.2 ((List.mem_append.1 later).imp_left (mem_weave_of_mem count))
          · exact foreign entry later own
      · rw [one, answer]
        rfl
      · have same := (List.forall₂_and_left _ _).2 ⟨fun later member => (rest later member).2, answers⟩
        exact same.imp fun later o both => both.1.trans both.2

end Theory.Machine
