/-
# Theory.Epochs -- linearizable histories that go on after a crash

An object that loses its clients and comes back lives in epochs.  `Epochs` chains one
`Linearization` per epoch: each starts in the state the one before it ended in, so
what took effect before a crash is there after it, and what did not is gone for good.
The orders of all epochs, one after the other, are one run of the sequential object
(`Epochs.sequential`).

`sequential_simulation` moves an order from one sequential object to another, with
hypotheses about the exchanges still to come; `Linearization.countP_le` bounds what an
order holds by what was called.
-/
import Mathlib.Data.List.Induction
import Mathlib.Data.List.Perm.Subperm
import AsterKV.Theory.Linearizability

namespace Theory.Linearizability

set_option autoImplicit false

universe u

variable {C I O S T : Type u}

/-! ## Other objects for the same order -/

/-- **Simulation between sequential objects.**  The relation may depend on the
exchanges that are still to come. -/
theorem sequential_simulation {Spec : S → I → O → S → Prop} {Other : T → I → O → T → Prop}
    {R : S → T → List (I × O) → Prop}
    (simulates : ∀ s t input output rest next, R s t ((input, output) :: rest) →
      Spec s input output next → ∃ after, Other t input output after ∧ R next after rest)
    {s final : S} {t : T} {exchanges : List (I × O)} (related : R s t exchanges)
    (run : Sequential Spec s exchanges final) :
    ∃ last, Sequential Other t exchanges last ∧ R final last [] := by
  induction exchanges generalizing s t with
  | nil =>
      cases run
      exact ⟨t, rfl, related⟩
  | cons exchange rest ih =>
      obtain ⟨input, output⟩ := exchange
      obtain ⟨next, answer, later⟩ := run
      obtain ⟨after, answered, still⟩ := simulates s t input output rest next related answer
      obtain ⟨last, more, ends⟩ := ih still later
      exact ⟨last, ⟨after, answered, more⟩, ends⟩

/-- An order that is also a run of another object linearizes to that object. -/
theorem Linearization.of_sequential {Spec : S → I → O → S → Prop} {Other : T → I → O → T → Prop}
    {init final : S} {start last : T} {history : List (Event C I O)}
    {order : List (Operation C I O)} (linear : Linearization Spec init history order final)
    (run : Sequential Other start (order.map Operation.exchange) last) :
    Linearization Other start history order last where
  sequential := run
  genuine := linear.genuine
  once := linear.once
  complete := linear.complete
  program := linear.program
  realTime := linear.realTime

/-! ## What an order can hold -/

/-- The event calls with an input of this kind. -/
def Event.calls (p : I → Bool) : Event C I O → Bool
  | .call _ input => p input
  | .ret _ _ => false

/-- The places of the events of a kind, counted. -/
theorem countP_range_eq (p : Event C I O → Bool) (history : List (Event C I O)) :
    ((List.range history.length).filter fun i => (history[i]?).any p).length =
      history.countP p := by
  induction history using List.reverseRecOn with
  | nil => rfl
  | append_singleton rest event ih =>
      have before : ((List.range rest.length).filter fun i => ((rest ++ [event])[i]?).any p) =
          (List.range rest.length).filter fun i => (rest[i]?).any p := by
        refine List.filter_congr fun i member => ?_
        rw [List.getElem?_append_left (List.mem_range.1 member)]
      rw [List.length_append, List.length_singleton, List.range_succ, List.filter_append, before,
        List.length_append, ih, List.countP_append, List.filter_singleton,
        List.getElem?_concat_length]
      cases holds : p event <;> simp [holds]

/-- **An order holds no more operations of a kind than were called.** -/
theorem Linearization.countP_le {Spec : S → I → O → S → Prop} {init final : S}
    {history : List (Event C I O)} {order : List (Operation C I O)}
    (linear : Linearization Spec init history order final) (p : I → Bool) :
    (order.countP fun op => p op.input) ≤ history.countP (Event.calls p) := by
  have places : ((order.filter fun op => p op.input).map Operation.calledAt).Nodup :=
    linear.once.sublist (List.filter_sublist.map _)
  have inside : ((order.filter fun op => p op.input).map Operation.calledAt) ⊆
      (List.range history.length).filter fun i => (history[i]?).any (Event.calls p) := by
    intro place member
    obtain ⟨op, inFilter, rfl⟩ := List.mem_map.1 member
    obtain ⟨inOrder, holds⟩ := List.mem_filter.1 inFilter
    have called := linear.genuine op inOrder
    refine List.mem_filter.2 ⟨List.mem_range.2 (linear.calledAt_lt inOrder), ?_⟩
    rw [called]
    exact holds
  have counted := (places.subperm inside).length_le
  rwa [countP_range_eq, List.length_map, ← List.countP_eq_length_filter] at counted

/-! ## Epochs -/

/-- One linearization per epoch, each from where the last one ended. -/
inductive Epochs (Spec : S → I → O → S → Prop) : S → List (List (Event C I O)) →
    List (List (Operation C I O)) → S → Prop where
  | nil (s : S) : Epochs Spec s [] [] s
  | cons {init middle final : S} {history : List (Event C I O)} {order : List (Operation C I O)}
      {histories : List (List (Event C I O))} {orders : List (List (Operation C I O))}
      (first : Linearization Spec init history order middle)
      (rest : Epochs Spec middle histories orders final) :
      Epochs Spec init (history :: histories) (order :: orders) final

/-- **The orders of all epochs are one run of the object.** -/
theorem Epochs.sequential {Spec : S → I → O → S → Prop} {init final : S}
    {histories : List (List (Event C I O))} {orders : List (List (Operation C I O))}
    (epochs : Epochs Spec init histories orders final) :
    Sequential Spec init (orders.flatten.map Operation.exchange) final := by
  induction epochs with
  | nil s => rfl
  | cons first rest ih =>
      rw [List.flatten_cons, List.map_append]
      exact sequential_append.2 ⟨_, first.sequential, ih⟩

end Theory.Linearizability
