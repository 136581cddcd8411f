/-
# Theory.VisibleSteps -- linearizability from what one step shows

`Seen` is what an observer keeps of a concurrent system: the history of its clients,
what each of them waits for, and the state of the object they share.  A step of the
system is `Visible` as a call, as the point where a call takes effect, as a return, or
not at all.  A machine all of whose steps are visible in one of these ways is
linearizable (`linearization_of_visible`); an instance proves one step lemma.
-/
import AsterKV.Theory.Linearizability
import AsterKV.Theory.Machine

namespace Theory.Linearizability

set_option autoImplicit false

universe u v

variable {C I O S : Type u}

structure Seen (C I O S : Type u) where
  history : List (Event C I O)
  /-- The input a client waits for, with the output it is going to get. -/
  view : C → Option (I × Option O)
  state : S

/-- A recorder of what was seen. -/
structure Records (Spec : S → I → O → S → Prop) (init : S) (seen : Seen C I O S)
    (r : Recorder C I O S) : Prop where
  recorded : Recorded Spec init r
  history : r.history = seen.history
  standing : ∀ client, (r.standing client).view = seen.view client
  state : r.state = seen.state

/-- The recorder's order linearizes what was seen. -/
theorem Records.linearization {Spec : S → I → O → S → Prop} {init : S} {seen : Seen C I O S}
    {r : Recorder C I O S} (records : Records Spec init seen r) :
    Linearization Spec init seen.history r.order seen.state := by
  have linear := records.recorded.linear
  rwa [records.history, records.state] at linear

section Steps

variable [DecidableEq C]

/-- What one step can show. -/
inductive Visible (Spec : S → I → O → S → Prop) (seen next : Seen C I O S) : Prop where
  | nothing (history : next.history = seen.history) (view : next.view = seen.view)
      (state : next.state = seen.state)
  | call (client : C) (input : I) (history : next.history = seen.history ++ [.call client input])
      (view : next.view = Function.update seen.view client (some (input, none)))
      (state : next.state = seen.state)
  | point (client : C) (input : I) (output : O) (history : next.history = seen.history)
      (pending : seen.view client = some (input, none))
      (view : next.view = Function.update seen.view client (some (input, some output)))
      (answer : Spec seen.state input output next.state)
  | ret (client : C) (input : I) (output : O)
      (history : next.history = seen.history ++ [.ret client output])
      (done : seen.view client = some (input, some output))
      (view : next.view = Function.update seen.view client none) (state : next.state = seen.state)

variable {Spec : S → I → O → S → Prop} {init : S} {seen next : Seen C I O S}
  {r : Recorder C I O S}

/-- The standings after one client's move. -/
theorem Records.standing_update (records : Records Spec init seen r) {client : C}
    {now : Standing I O} {view : Option (I × Option O)} (same : now.view = view)
    (moved : next.view = Function.update seen.view client view) (other : C) :
    (Function.update r.standing client now other).view = next.view other := by
  rw [moved]
  by_cases is : other = client
  · rw [is, Function.update_self, Function.update_self, same]
  · rw [Function.update_of_ne is, Function.update_of_ne is, records.standing]

/-- **A recorder follows every visible step.** -/
theorem Records.visible (records : Records Spec init seen r) (visible : Visible Spec seen next) :
    ∃ r, Records Spec init next r := by
  cases visible with
  | nothing history view state =>
      exact ⟨r, records.recorded, records.history.trans history.symm,
        fun client => (records.standing client).trans (congrFun view client).symm,
        records.state.trans state.symm⟩
  | call client input history view state =>
      exact ⟨r.call client input, records.recorded.call client input,
        by rw [history, Recorder.call, records.history],
        records.standing_update rfl view, records.state.trans state.symm⟩
  | point client input output history pending view answer =>
      obtain ⟨calledAt, standing⟩ :=
        Standing.view_eq_pending ((records.standing client).trans pending)
      rw [← records.state] at answer
      exact ⟨r.point client calledAt input output next.state,
        records.recorded.point standing answer, records.history.trans history.symm,
        records.standing_update rfl view, rfl⟩
  | ret client input output history done view state =>
      obtain ⟨calledAt, standing⟩ := Standing.view_eq_done ((records.standing client).trans done)
      exact ⟨r.ret client output, records.recorded.ret standing,
        by rw [history, Recorder.ret, records.history],
        records.standing_update rfl view, records.state.trans state.symm⟩

end Steps

/-! ## Machines -/

variable {M : Type u} {J : Type v} {X : Type v} [DecidableEq C]

/-- What is seen of a machine and of what it has put out. -/
def seenOf (event? : X → Option (Event C I O)) (view : M → C → Option (I × Option O))
    (state : M → S) (m : M) (outputs : List X) : Seen C I O S :=
  { history := outputs.filterMap event?, view := view m, state := state m }

/-- **A machine of visible steps is linearizable.** -/
theorem linearization_of_visible {Spec : S → I → O → S → Prop} (step : M → J → X × M)
    {event? : X → Option (Event C I O)} {view : M → C → Option (I × Option O)} {state : M → S}
    {Inv : M → Prop} {Fair : X → Prop}
    (visible : ∀ m j outputs, Inv m → Fair (step m j).1 → Inv (step m j).2 ∧
      Visible Spec (seenOf event? view state m outputs)
        (seenOf event? view state (step m j).2 (outputs ++ [(step m j).1])))
    {m : M} (start : Inv m) (idle : ∀ client, view m client = none) (inputs : List J)
    (fair : ∀ output ∈ (Machine.run step m inputs).1, Fair output) :
    Inv (Machine.after step m inputs) ∧
      ∃ r, Records Spec (state m) (seenOf event? view state (Machine.after step m inputs)
        (Machine.run step m inputs).1) r := by
  have first : Records Spec (state m) (seenOf event? view state m []) (Recorder.start (state m)) :=
    ⟨recorded_start _ _, rfl, fun client => (idle client).symm, rfl⟩
  have all := Machine.run_accumulates step inputs
    (P := fun now outputs => (∀ output ∈ outputs, Fair output) → Inv now ∧
      ∃ r, Records Spec (state m) (seenOf event? view state now outputs) r)
    (fun now outputs j _ so_far fair => by
      obtain ⟨inv, r, records⟩ := so_far fun output member =>
        fair output (List.mem_append_left _ member)
      obtain ⟨kept, shows⟩ := visible now j outputs inv
        (fair _ (List.mem_append_right _ List.mem_cons_self))
      exact ⟨kept, records.visible shows⟩)
    (fun _ => ⟨start, Recorder.start (state m), first⟩)
  rw [List.nil_append] at all
  exact all fair

end Theory.Linearizability
