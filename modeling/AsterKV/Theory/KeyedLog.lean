/-
# Theory.KeyedLog -- logs whose entries write one key each

An entry names a key and leaves a value there, or nothing; some entries need their key
to be present.  Over any store that replays such a log (`Keyed`), the result is given
key by key by the last entry that names the key (`lookup_replay`), and the replay goes
through exactly when every entry that needs its key finds it (`replay_isSome_iff`).
A log that replays over an empty store replays over its own result, and leaves it as
it was (`replay_again`).
-/
import Mathlib.Logic.Function.Basic
import AsterKV.Theory.Journal

namespace Theory.KeyedLog

open Theory.Journal

set_option autoImplicit false

universe u v w x

/-- What an entry does to its key. -/
structure Writes (ε : Type u) (κ : Type v) (ν : Type w) where
  key : ε → κ
  leaves : ε → Option ν
  needs : ε → Prop

section

variable {ε : Type u} {κ : Type v} {ν : Type w} [DecidableEq κ] (writes : Writes ε κ ν)

/-- The last entry that names a key. -/
def lastOn (log : List ε) (k : κ) : Option ε :=
  (log.filter fun e => decide (writes.key e = k)).getLast?

/-- What the last entry on a key leaves there, and what was there if there is none. -/
def valueAfter (initial : κ → Option ν) (log : List ε) (k : κ) : Option ν :=
  match lastOn writes log k with
  | none => initial k
  | some e => writes.leaves e

/-- Every entry that needs its key finds it. -/
def AllFound (initial : κ → Option ν) (log : List ε) : Prop :=
  ∀ before e after, log = before ++ e :: after → writes.needs e →
    (valueAfter writes initial before (writes.key e)).isSome

/-! ## The last entry -/

@[simp] theorem lastOn_nil (k : κ) : lastOn writes [] k = none := rfl

theorem lastOn_snoc (log : List ε) (e : ε) (k : κ) :
    lastOn writes (log ++ [e]) k = if writes.key e = k then some e else lastOn writes log k := by
  unfold lastOn
  by_cases same : writes.key e = k
  · simp [List.filter_append, same]
  · simp [List.filter_append, same]

@[simp] theorem valueAfter_nil (initial : κ → Option ν) : valueAfter writes initial [] = initial :=
  rfl

theorem valueAfter_snoc (initial : κ → Option ν) (log : List ε) (e : ε) :
    valueAfter writes initial (log ++ [e]) =
      Function.update (valueAfter writes initial log) (writes.key e) (writes.leaves e) := by
  funext k
  unfold valueAfter
  rw [lastOn_snoc]
  by_cases same : writes.key e = k
  · subst same
    simp
  · rw [if_neg same, Function.update_of_ne (Ne.symm same)]

/-- Writing a log over its own result changes nothing. -/
theorem valueAfter_again (initial : κ → Option ν) (log : List ε) :
    valueAfter writes (valueAfter writes initial log) log = valueAfter writes initial log := by
  funext k
  unfold valueAfter
  cases lastOn writes log k with
  | none => rfl
  | some e => rfl

variable {writes}

/-- A value at a key that began empty was left there by the log, wherever it begins. -/
theorem valueAfter_of_absent {initial : κ → Option ν} {log : List ε} {k : κ}
    (absent : initial k = none) (found : (valueAfter writes initial log k).isSome)
    (other : κ → Option ν) : valueAfter writes other log k = valueAfter writes initial log k := by
  unfold valueAfter at found ⊢
  cases last : lastOn writes log k with
  | none =>
      simp only [last, absent] at found
      cases found
  | some e => rfl

/-- What is found over an empty store is found over any. -/
theorem AllFound.over {initial : κ → Option ν} {log : List ε} (absent : ∀ k, initial k = none)
    (found : AllFound writes initial log) (other : κ → Option ν) : AllFound writes other log := by
  intro before e after split needs
  have here := found before e after split needs
  rwa [valueAfter_of_absent (absent _) here other]

theorem AllFound.snoc_iff {initial : κ → Option ν} {log : List ε} {e : ε} :
    AllFound writes initial (log ++ [e]) ↔ AllFound writes initial log ∧
      (writes.needs e → (valueAfter writes initial log (writes.key e)).isSome) := by
  constructor
  · intro found
    refine ⟨fun before d after split => found before d (after ++ [e]) (by simp [split]), ?_⟩
    exact found log e [] rfl
  · rintro ⟨found, last⟩ before d after split needs
    rcases List.eq_nil_or_concat after with rfl | ⟨front, final, rfl⟩
    · obtain ⟨rfl, same⟩ := List.append_inj' split rfl
      cases List.singleton_inj.1 same
      exact last needs
    · rw [List.concat_eq_append, ← List.cons_append, ← List.append_assoc] at split
      exact found before d front (List.append_inj' split rfl).1 needs

end

/-! ## Stores -/

section

variable {ε : Type u} {κ : Type v} {ν : Type w} [DecidableEq κ] {σ : Type x}

/-- A store that applies entries as `writes` says. -/
structure Keyed (writes : Writes ε κ ν) (apply : ε → σ → Option σ)
    (lookup : σ → κ → Option ν) : Prop where
  refused : ∀ e s, apply e s = none ↔ writes.needs e ∧ lookup s (writes.key e) = none
  written : ∀ e s t, apply e s = some t →
    lookup t = Function.update (lookup s) (writes.key e) (writes.leaves e)

variable {writes : Writes ε κ ν} {apply : ε → σ → Option σ} {lookup : σ → κ → Option ν}

namespace Keyed

/-- **The last entry on a key decides what a replay leaves there.** -/
theorem lookup_replay (keyed : Keyed writes apply lookup) {log : List ε} {s t : σ}
    (replays : replay apply log s = some t) : lookup t = valueAfter writes (lookup s) log := by
  induction log using List.reverseRecOn generalizing t with
  | nil =>
      cases replays
      rfl
  | append_singleton log e ih =>
      rw [replay_snoc] at replays
      obtain ⟨middle, first, last⟩ := Option.bind_eq_some_iff.1 replays
      rw [keyed.written e middle t last, ih first, valueAfter_snoc]

/-- **A replay goes through exactly when every entry that needs its key finds it.** -/
theorem replay_isSome_iff (keyed : Keyed writes apply lookup) {log : List ε} {s : σ} :
    (replay apply log s).isSome ↔ AllFound writes (lookup s) log := by
  induction log using List.reverseRecOn with
  | nil =>
      refine ⟨fun _ before e after split => ?_, fun _ => rfl⟩
      simp at split
  | append_singleton log e ih =>
      rw [AllFound.snoc_iff, ← ih, replay_snoc]
      cases first : replay apply log s with
      | none => simp
      | some middle =>
          have here := keyed.refused e middle
          rw [keyed.lookup_replay first] at here
          simp [Option.isSome_iff_ne_none, here]

/-- **A log that replays over an empty store replays over its own result, to the same.** -/
theorem replay_again (keyed : Keyed writes apply lookup) {log : List ε} {s t : σ}
    (absent : ∀ k, lookup s k = none) (replays : replay apply log s = some t) :
    ∃ u, replay apply log t = some u ∧ lookup u = lookup t := by
  have found : AllFound writes (lookup s) log := keyed.replay_isSome_iff.1 (by rw [replays]; rfl)
  obtain ⟨u, again⟩ := Option.isSome_iff_exists.1
    (keyed.replay_isSome_iff.2 (found.over absent (lookup t)))
  refine ⟨u, again, ?_⟩
  rw [keyed.lookup_replay again, keyed.lookup_replay replays, valueAfter_again]

end Keyed

end

end Theory.KeyedLog
