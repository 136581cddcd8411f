/-
# Theory.Journal -- states rebuilt from a log of entries

An entry either applies to a state or is refused.  A log is replayed entry by
entry and fails at the first refusal.  A journaled state is faithful when the log
replays to it; adding an entry that applies keeps it faithful, and every prefix of
a log that replays also replays, which is what a truncated log comes down to.
-/
import Mathlib.Data.List.Infix

namespace Theory.Journal

set_option autoImplicit false

universe u v

variable {σ : Type u} {ε : Type v} (apply : ε → σ → Option σ)

/-- Replay a log, stopping at the first entry that is refused. -/
def replay : List ε → σ → Option σ
  | [], s => some s
  | e :: rest, s => (apply e s).bind (replay rest)

@[simp] theorem replay_nil (s : σ) : replay apply [] s = some s := rfl

@[simp] theorem replay_cons (e : ε) (rest : List ε) (s : σ) :
    replay apply (e :: rest) s = (apply e s).bind (replay apply rest) := rfl

theorem replay_append (first second : List ε) (s : σ) :
    replay apply (first ++ second) s = (replay apply first s).bind (replay apply second) := by
  induction first generalizing s with
  | nil => rfl
  | cons e rest ih =>
      simp only [List.cons_append, replay_cons]
      cases apply e s with
      | none => rfl
      | some t => exact ih t

theorem replay_snoc (log : List ε) (e : ε) (s : σ) :
    replay apply (log ++ [e]) s = (replay apply log s).bind (apply e) := by
  rw [replay_append]
  congr 1
  funext t
  cases h : apply e t <;> simp [h]

theorem replay_map {ι : Type v} (f : ι → ε) (log : List ι) (s : σ) :
    replay apply (log.map f) s = replay (fun i => apply (f i)) log s := by
  induction log generalizing s with
  | nil => rfl
  | cons i rest ih =>
      rw [List.map_cons, replay_cons, replay_cons]
      congr 1
      funext t
      exact ih t

variable {apply}

/-- **Replays are simulated entry by entry.**  Where one kind of state takes an entry, the
other kind takes it too and stays related. -/
theorem replay_simulation {τ : Type u} {apply' : ε → τ → Option τ} {R : σ → τ → Prop}
    {log : List ε} (simulates : ∀ e ∈ log, ∀ s s' t, R s t → apply e s = some s' →
      ∃ t', apply' e t = some t' ∧ R s' t') {s s' : σ} {t : τ} (related : R s t)
    (replayed : replay apply log s = some s') : ∃ t', replay apply' log t = some t' ∧ R s' t' := by
  induction log generalizing s t with
  | nil =>
      cases Option.some.inj replayed
      exact ⟨t, rfl, related⟩
  | cons e rest ih =>
      rw [replay_cons] at replayed
      obtain ⟨next, applied, later⟩ := Option.bind_eq_some_iff.1 replayed
      obtain ⟨next', applied', related'⟩ := simulates e List.mem_cons_self s next t related applied
      obtain ⟨t', replayed', last⟩ :=
        ih (fun e member => simulates e (List.mem_cons_of_mem _ member)) related' later
      exact ⟨t', by rw [replay_cons, applied', Option.bind_some, replayed'], last⟩

/-- A replay that fails stops at an entry the state before it refuses. -/
theorem exists_refused {log : List ε} {s : σ} (stuck : replay apply log s = none) :
    ∃ before e after t, log = before ++ e :: after ∧ replay apply before s = some t ∧
      apply e t = none := by
  induction log generalizing s with
  | nil => cases stuck
  | cons first rest ih =>
      rw [replay_cons] at stuck
      cases applied : apply first s with
      | none => exact ⟨[], first, rest, s, rfl, rfl, applied⟩
      | some next =>
          rw [applied, Option.bind_some] at stuck
          obtain ⟨before, e, after, t, split, replays, refused⟩ := ih stuck
          refine ⟨first :: before, e, after, t, by rw [split, List.cons_append], ?_, refused⟩
          rw [replay_cons, applied, Option.bind_some, replays]

/-- A faithful journal stays faithful when an entry that applies is added. -/
theorem replay_snoc_of_apply {log : List ε} {e : ε} {s t u : σ}
    (faithful : replay apply log s = some t) (applies : apply e t = some u) :
    replay apply (log ++ [e]) s = some u := by
  rw [replay_snoc, faithful, Option.bind_some, applies]

/-- Every prefix of a log that replays also replays. -/
theorem replay_of_prefix {front log : List ε} {s t : σ} (isPrefix : front <+: log)
    (replays : replay apply log s = some t) : ∃ m, replay apply front s = some m := by
  obtain ⟨back, rfl⟩ := isPrefix
  rw [replay_append] at replays
  cases h : replay apply front s with
  | none => simp [h] at replays
  | some m => exact ⟨m, rfl⟩

end Theory.Journal
