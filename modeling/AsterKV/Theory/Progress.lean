/-
# Theory.Progress -- machines that run out of work

The steps of a machine may be waits, which change nothing.  If every other step does
some of a bounded amount of work, then of more blocks of inputs than there is work, one
changes nothing at all (`exists_idle_block`).  A schedule is fair when a block that
changes nothing means that the machine is done; fair schedules finish the work
(`done_of_blocks`).

A machine that goes on for ever may still have to come by a target again and again.  Then
some of its steps help: a rank that no step raises falls with each of them, and a step
that helps keeps helping until the rank falls (`Descends`).  Blocks that hold a helpful
input for every state lead to the target (`target_of_blocks`).
-/
import AsterKV.Theory.Machine

namespace Theory.Machine

set_option autoImplicit false

universe u v w

variable {S : Type u} {I : Type v} {O : Type w} (step : S → I → O × S)

/-- A step waits or works; `work` is what is left to do while `Inv` holds. -/
structure Works (Inv : S → Prop) (work : S → Nat) : Prop where
  kept : ∀ s i, Inv s → Inv (step s i).2
  works : ∀ s i, Inv s → (step s i).2 = s ∨ work (step s i).2 < work s

/-- None of the inputs changes the state. -/
def Idle (s : S) (inputs : List I) : Prop := ∀ i ∈ inputs, (step s i).2 = s

variable {step}

/-- A machine that nothing moves stays where it is. -/
theorem after_of_idle {s : S} {inputs : List I} (idle : Idle step s inputs) :
    after step s inputs = s := by
  induction inputs with
  | nil => rfl
  | cons i rest ih =>
      rw [after_cons, idle i List.mem_cons_self]
      exact ih fun j member => idle j (List.mem_cons_of_mem _ member)

section Blocks

variable {Inv : S → Prop} {work : S → Nat} (works : Works step Inv work)

include works

/-- A block of inputs changes nothing, or does some work. -/
theorem Works.block {s : S} (start : Inv s) (inputs : List I) :
    Inv (after step s inputs) ∧
      (Idle step s inputs ∨ work (after step s inputs) < work s) := by
  refine ⟨after_invariant step works.kept start inputs, ?_⟩
  induction inputs generalizing s with
  | nil => exact Or.inl fun _ member => absurd member List.not_mem_nil
  | cons i rest ih =>
      have later := ih (works.kept s i start)
      rw [after_cons]
      rcases works.works s i start with same | less
      · rw [same] at later ⊢
        rcases later with idle | less
        · refine Or.inl fun j member => ?_
          rcases List.mem_cons.1 member with rfl | member
          · exact same
          · exact idle j member
        · exact Or.inr less
      · rcases later with idle | more
        · rw [after_of_idle idle]
          exact Or.inr less
        · exact Or.inr (Nat.lt_trans more less)

/-- **Of more blocks than there is work, one changes nothing.** -/
theorem Works.exists_idle_block {s : S} (start : Inv s) {blocks : List (List I)}
    (enough : work s < blocks.length) :
    ∃ front block back, blocks = front ++ block :: back ∧
      Inv (after step s front.flatten) ∧ Idle step (after step s front.flatten) block := by
  induction blocks generalizing s with
  | nil => exact absurd enough (Nat.not_lt_zero _)
  | cons block rest ih =>
      obtain ⟨kept, idle | less⟩ := works.block start block
      · exact ⟨[], block, rest, rfl, start, idle⟩
      · rw [List.length_cons] at enough
        obtain ⟨front, found, back, split, inv, idle⟩ := ih kept (by omega)
        refine ⟨block :: front, found, back, by rw [split, List.cons_append], ?_⟩
        rw [List.flatten_cons, after_append]
        exact ⟨inv, idle⟩

/-- **Fair schedules finish the work.** -/
theorem Works.done_of_blocks {Done : S → Prop} {s : S} (start : Inv s) {blocks : List (List I)}
    (fair : ∀ block ∈ blocks, ∀ s, Inv s → Idle step s block → Done s)
    (rests : ∀ block ∈ blocks, ∀ s, Inv s → Done s → Idle step s block)
    (enough : work s < blocks.length) : Done (after step s blocks.flatten) := by
  obtain ⟨front, block, back, rfl, inv, idle⟩ := works.exists_idle_block start enough
  have done := fair block (by simp) _ inv idle
  have stays : Idle step (after step s front.flatten) (block :: back).flatten := by
    intro i member
    obtain ⟨later, isLater, inLater⟩ := List.mem_flatten.1 member
    exact rests later (List.mem_append_right _ isLater) _ inv done i inLater
  rw [List.flatten_append, after_append, after_of_idle stays]
  exact done

end Blocks

/-! ## Steps that help -/

variable (step)

/-- Off the target the rank never rises; a helpful step lowers it, and what helps goes on
to help until something lowers it. -/
structure Descends (Inv Target : S → Prop) (rank : S → Nat) (Helps : S → I → Prop) : Prop where
  kept : ∀ s i, Inv s → ¬ Target s → Inv (step s i).2
  falls : ∀ s i, Inv s → ¬ Target s → rank (step s i).2 < rank s ∨
    (rank (step s i).2 = rank s ∧ ¬ Helps s i ∧ ∀ j, Helps s j → Helps (step s i).2 j)

variable {step}

section Targets

variable {Inv Target : S → Prop} {rank : S → Nat} {Helps : S → I → Prop}
  (descends : Descends step Inv Target rank Helps)

include descends

/-- A run comes by the target, or keeps the invariant and does not raise the rank. -/
theorem Descends.run {s : S} (start : Inv s) (inputs : List I) :
    (∃ front, front <+: inputs ∧ Inv (after step s front) ∧ Target (after step s front)) ∨
      (Inv (after step s inputs) ∧ rank (after step s inputs) ≤ rank s) := by
  induction inputs generalizing s with
  | nil => exact Or.inr ⟨start, Nat.le_refl _⟩
  | cons i rest ih =>
      by_cases here : Target s
      · exact Or.inl ⟨[], List.nil_prefix, start, here⟩
      · rcases ih (descends.kept s i start here) with ⟨front, isFront, reached⟩ | ⟨kept, least⟩
        · exact Or.inl ⟨i :: front, List.cons_prefix_cons.2 ⟨rfl, isFront⟩, reached⟩
        · refine Or.inr ⟨kept, Nat.le_trans least ?_⟩
          rcases descends.falls s i start here with less | ⟨same, -⟩
          · exact Nat.le_of_lt less
          · exact Nat.le_of_eq same

/-- A block with a helpful input comes by the target or lowers the rank. -/
theorem Descends.block {s : S} (start : Inv s) {block : List I} {i : I} (member : i ∈ block)
    (helps : Helps s i) :
    (∃ front, front <+: block ∧ Inv (after step s front) ∧ Target (after step s front)) ∨
      (Inv (after step s block) ∧ rank (after step s block) < rank s) := by
  induction block generalizing s with
  | nil => exact absurd member List.not_mem_nil
  | cons first rest ih =>
      by_cases here : Target s
      · exact Or.inl ⟨[], List.nil_prefix, start, here⟩
      · have kept := descends.kept s first start here
        have later : ∀ {bound : Nat}, ((∃ front, front <+: rest ∧
            Inv (after step (step s first).2 front) ∧ Target (after step (step s first).2 front)) ∨
              (Inv (after step (step s first).2 rest) ∧
                rank (after step (step s first).2 rest) < bound)) → bound ≤ rank s →
            (∃ front, front <+: first :: rest ∧ Inv (after step s front) ∧
              Target (after step s front)) ∨ (Inv (after step s (first :: rest)) ∧
                rank (after step s (first :: rest)) < rank s) := by
          rintro bound (⟨front, isFront, reached⟩ | ⟨inv, less⟩) most
          · exact Or.inl ⟨first :: front, List.cons_prefix_cons.2 ⟨rfl, isFront⟩, reached⟩
          · exact Or.inr ⟨inv, Nat.lt_of_lt_of_le less most⟩
        rcases descends.falls s first start here with less | ⟨same, useless, persists⟩
        · refine later ?_ (Nat.le_refl _)
          exact (descends.run kept rest).imp_right fun ⟨inv, least⟩ =>
            ⟨inv, Nat.lt_of_le_of_lt least less⟩
        · have still : i ∈ rest := by
            rcases List.mem_cons.1 member with rfl | still
            · exact absurd helps useless
            · exact still
          exact later (ih kept still (persists i helps)) (Nat.le_of_eq same)

/-- **Blocks that help reach the target.** -/
theorem Descends.target_of_blocks {s : S} (start : Inv s) {blocks : List (List I)}
    (helped : ∀ block ∈ blocks, ∀ s, Inv s → ¬ Target s → ∃ i ∈ block, Helps s i)
    (enough : rank s < blocks.length) :
    ∃ front, front <+: blocks.flatten ∧ Inv (after step s front) ∧
      Target (after step s front) := by
  induction blocks generalizing s with
  | nil => exact absurd enough (Nat.not_lt_zero _)
  | cons block rest ih =>
      by_cases here : Target s
      · exact ⟨[], List.nil_prefix, start, here⟩
      · obtain ⟨i, member, helps⟩ := helped block List.mem_cons_self s start here
        rw [List.flatten_cons]
        rcases descends.block start member helps with ⟨front, isFront, reached⟩ | ⟨kept, less⟩
        · exact ⟨front, isFront.trans (List.prefix_append _ _), reached⟩
        · rw [List.length_cons] at enough
          obtain ⟨front, isFront, reached⟩ :=
            ih kept (fun other inside => helped other (List.mem_cons_of_mem _ inside)) (by omega)
          rw [← after_append] at reached
          exact ⟨block ++ front, (List.prefix_append_right_inj block).2 isFront, reached⟩

end Targets

end Theory.Machine
