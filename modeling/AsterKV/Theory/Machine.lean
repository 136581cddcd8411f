/-
# Theory.Machine -- deterministic machines that answer their inputs

A machine takes an input in a state and gives an output and the next state.  A
client of the machine is a list of inputs.  These rules cover the runs:

* `after_invariant` -- what every step preserves holds where a run ends;
* `always_iff` -- if, while an invariant lasts, a state is good after a step exactly
  when the step met a condition, then a run stays good exactly when all its steps
  meet it;
* `after_dichotomy` -- a run whose steps all meet the condition ends well, and one that
  violates it once has gone wrong for good;
* `run_accumulates` -- an invariant that speaks of the outputs so far;
* `prefix_iff_steps` -- exact conditions on what is good together with notes taken
  along the run;
* `run_simulation` -- related machines give the same outputs.
-/
namespace Theory.Machine

set_option autoImplicit false

universe u v w

variable {S T : Type u} {I : Type v} {O : Type w}

/-- The outputs of a run and the state it ends in. -/
def run (step : S → I → O × S) : S → List I → List O × S
  | s, [] => ([], s)
  | s, i :: rest =>
      let (output, next) := step s i
      let (outputs, last) := run step next rest
      (output :: outputs, last)

/-- The state a run ends in. -/
def after (step : S → I → O × S) (s : S) (inputs : List I) : S := (run step s inputs).2

/-- Every step of the run starts in a state and with an input that satisfy `Ok`. -/
def Steps (step : S → I → O × S) (Ok : S → I → Prop) : S → List I → Prop
  | _, [] => True
  | s, i :: rest => Ok s i ∧ Steps step Ok (step s i).2 rest

instance Steps.decidable (step : S → I → O × S) (Ok : S → I → Prop)
    [∀ s i, Decidable (Ok s i)] : ∀ s inputs, Decidable (Steps step Ok s inputs)
  | _, [] => inferInstanceAs (Decidable True)
  | s, i :: rest =>
      have := Steps.decidable step Ok (step s i).2 rest
      inferInstanceAs (Decidable (Ok s i ∧ Steps step Ok (step s i).2 rest))

/-- `Good` holds now and after every step of the run. -/
def Always (step : S → I → O × S) (Good : S → Prop) : S → List I → Prop
  | s, [] => Good s
  | s, i :: rest => Good s ∧ Always step Good (step s i).2 rest

variable (step : S → I → O × S)

@[simp] theorem run_nil (s : S) : run step s [] = ([], s) := rfl

@[simp] theorem run_cons (s : S) (i : I) (rest : List I) :
    run step s (i :: rest) =
      ((step s i).1 :: (run step (step s i).2 rest).1, (run step (step s i).2 rest).2) := rfl

@[simp] theorem after_nil (s : S) : after step s [] = s := rfl

@[simp] theorem after_cons (s : S) (i : I) (rest : List I) :
    after step s (i :: rest) = after step (step s i).2 rest := rfl

theorem run_append (s : S) (first second : List I) :
    run step s (first ++ second) =
      ((run step s first).1 ++ (run step (after step s first) second).1,
        (run step (after step s first) second).2) := by
  induction first generalizing s with
  | nil => rfl
  | cons i rest ih => simp [ih]

theorem after_append (s : S) (first second : List I) :
    after step s (first ++ second) = after step (after step s first) second := by
  simp only [after, run_append]

/-- A machine behind a translation of its inputs runs on the translated inputs. -/
theorem run_map {J : Type v} (translate : J → I) (s : S) (inputs : List J) :
    run (fun s j => step s (translate j)) s inputs = run step s (inputs.map translate) := by
  induction inputs generalizing s with
  | nil => rfl
  | cons j rest ih => simp only [run_cons, List.map_cons, ih]

theorem always_now {Good : S → Prop} {s : S} {inputs : List I} (h : Always step Good s inputs) :
    Good s := by
  cases inputs with
  | nil => exact h
  | cons i rest => exact h.1

/-- Good at every point is good after every prefix. -/
theorem always_iff_forall_prefix {Good : S → Prop} {s : S} {inputs : List I} :
    Always step Good s inputs ↔ ∀ front, front <+: inputs → Good (after step s front) := by
  induction inputs generalizing s with
  | nil => simp [Always]
  | cons i rest ih =>
      simp only [Always, ih]
      constructor
      · rintro ⟨now, later⟩ front isPrefix
        rcases List.prefix_cons_iff.1 isPrefix with rfl | ⟨more, rfl, morePrefix⟩
        · exact now
        · exact later more morePrefix
      · intro h
        refine ⟨h [] List.nil_prefix, fun front isPrefix => ?_⟩
        exact h (i :: front) (List.cons_prefix_cons.2 ⟨rfl, isPrefix⟩)

/-- **Invariants of runs.** -/
theorem after_invariant {Inv : S → Prop} (preserved : ∀ s i, Inv s → Inv (step s i).2) {s : S}
    (start : Inv s) (inputs : List I) : Inv (after step s inputs) := by
  induction inputs generalizing s with
  | nil => exact start
  | cons i rest ih => exact ih (preserved s i start)

/-- **Exact conditions on runs.**  A step from a good state in the invariant leads
to a good state exactly when it meets `Ok`, and then keeps the invariant. -/
theorem always_iff {Inv Good : S → Prop} {Ok : S → I → Prop}
    (exact : ∀ s i, Inv s → Good s → (Good (step s i).2 ↔ Ok s i))
    (preserved : ∀ s i, Inv s → Good s → Ok s i → Inv (step s i).2) {s : S} {inputs : List I}
    (start : Inv s) (good : Good s) : Always step Good s inputs ↔ Steps step Ok s inputs := by
  induction inputs generalizing s with
  | nil => simp [Always, Steps, good]
  | cons i rest ih =>
      simp only [Always, Steps, good, true_and]
      constructor
      · intro later
        have ok := (exact s i start good).1 (always_now step later)
        have next := preserved s i start good ok
        exact ⟨ok, (ih next ((exact s i start good).2 ok)).1 later⟩
      · rintro ⟨ok, later⟩
        have next := preserved s i start good ok
        exact (ih next ((exact s i start good).2 ok)).2 later

/-- **Runs that go wrong for good.**  While all is well, a step keeps it so if it meets `Ok`
and spoils it if not; what is spoiled stays so. -/
theorem after_dichotomy {Inv Good Bad : S → Prop} {Ok : S → I → Prop}
    (steady : ∀ s i, Inv s → Inv (step s i).2)
    (keeps : ∀ s i, Inv s → Good s → Ok s i → Good (step s i).2)
    (spoils : ∀ s i, Inv s → Good s → ¬ Ok s i → Bad (step s i).2)
    (lasts : ∀ s i, Inv s → Bad s → Bad (step s i).2) {s : S} (start : Inv s) (good : Good s)
    (inputs : List I) :
    (Steps step Ok s inputs → Good (after step s inputs)) ∧
      (¬ Steps step Ok s inputs → Bad (after step s inputs)) := by
  induction inputs generalizing s with
  | nil => exact ⟨fun _ => good, fun no => absurd trivial no⟩
  | cons i rest ih =>
      by_cases ok : Ok s i
      · obtain ⟨well, wrong⟩ := ih (steady s i start) (keeps s i start good ok)
        exact ⟨fun steps => well steps.2, fun no => wrong fun later => no ⟨ok, later⟩⟩
      · refine ⟨fun steps => absurd steps.1 ok, fun _ => ?_⟩
        have both : ∀ s i, Inv s ∧ Bad s → Inv (step s i).2 ∧ Bad (step s i).2 :=
          fun s i both => ⟨steady s i both.1, lasts s i both.1 both.2⟩
        have now : Inv (step s i).2 ∧ Bad (step s i).2 := ⟨steady s i start, spoils s i start good ok⟩
        exact (after_invariant step both now rest).2

/-- **Invariants of what a run has put out so far.** -/
theorem run_accumulates (inputs : List I) {P : S → List O → Prop}
    (kept : ∀ s outputs, ∀ i ∈ inputs, P s outputs → P (step s i).2 (outputs ++ [(step s i).1]))
    {s : S} {outputs : List O} (start : P s outputs) :
    P (after step s inputs) (outputs ++ (run step s inputs).1) := by
  induction inputs generalizing s outputs with
  | nil => simpa using start
  | cons i rest ih =>
      have next := ih (fun s outputs j member => kept s outputs j (List.mem_cons_of_mem _ member))
        (kept s outputs i List.mem_cons_self start)
      rwa [List.append_assoc] at next

/-! ## Notes -/

section Notes

variable {L : Type u} (note : L → I → O → L)

/-- The notes at the end of a run. -/
def noted : S → L → List I → L
  | _, l, [] => l
  | s, l, i :: rest => noted (step s i).2 (note l i (step s i).1) rest

/-- **Exact conditions on runs, with notes.**  A good state stays good under a step
exactly when the step meets `Ok`; then every prefix of a run ends well exactly when
all its steps meet it. -/
theorem prefix_iff_steps {Inv Good : S → L → Prop} {Ok : S → I → Prop}
    (exact : ∀ s l i, Inv s l → Good s l →
      (Good (step s i).2 (note l i (step s i).1) ↔ Ok s i))
    (preserved : ∀ s l i, Inv s l → Good s l → Ok s i →
      Inv (step s i).2 (note l i (step s i).1))
    {s : S} {l : L} {inputs : List I} (start : Inv s l) (good : Good s l) :
    (∀ front, front <+: inputs → Good (after step s front) (noted step note s l front)) ↔
      Steps step Ok s inputs := by
  induction inputs generalizing s l with
  | nil =>
      constructor
      · exact fun _ => trivial
      · intro _ front isPrefix
        rw [List.prefix_nil.1 isPrefix]
        exact good
  | cons i rest ih =>
      constructor
      · intro all
        have next := all [i] (List.cons_prefix_cons.2 ⟨rfl, List.nil_prefix⟩)
        have ok := (exact s l i start good).1 next
        refine ⟨ok, (ih (preserved s l i start good ok) next).1 fun front isPrefix => ?_⟩
        exact all (i :: front) (List.cons_prefix_cons.2 ⟨rfl, isPrefix⟩)
      · rintro ⟨ok, later⟩ front isPrefix
        rcases List.prefix_cons_iff.1 isPrefix with rfl | ⟨more, rfl, morePrefix⟩
        · exact good
        · have next := (exact s l i start good).2 ok
          exact (ih (preserved s l i start good ok) next).2 later more morePrefix

end Notes

/-- **Simulation.**  Related states that answer alike and stay related under every
allowed input answer alike over whole runs. -/
theorem run_simulation {other : T → I → O × T} {R : S → T → Prop} {Ok : I → Prop}
    (simulates : ∀ s t i, R s t → Ok i →
      (step s i).1 = (other t i).1 ∧ R (step s i).2 (other t i).2)
    {s : S} {t : T} {inputs : List I} (start : R s t) (allowed : ∀ i ∈ inputs, Ok i) :
    (run step s inputs).1 = (run other t inputs).1 ∧
      R (after step s inputs) (after other t inputs) := by
  induction inputs generalizing s t with
  | nil => exact ⟨rfl, start⟩
  | cons i rest ih =>
      obtain ⟨output, next⟩ := simulates s t i start (allowed i List.mem_cons_self)
      obtain ⟨outputs, last⟩ := ih next fun j member => allowed j (List.mem_cons_of_mem _ member)
      exact ⟨by simp only [run_cons, output, outputs], last⟩

end Theory.Machine
