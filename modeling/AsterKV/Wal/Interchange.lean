/-
# AsterKV.Wal.Interchange -- the two engines behind one interface

A logged mutation must validate as a record, and a set record has a value; the
in-memory storage takes empty values.  That is the only difference a caller can see
(`engines_interchangeable`): as long as nothing fails and the counter does not wrap,
the logged engine is an in-memory storage that refuses empty values.

Error messages differ for an empty key, so what is compared is what a caller can
branch on (`Visible`).
-/
import AsterKV.Wal.CleanRuns

namespace AsterKV.Wal

open AsterKV.Core AsterKV.Storage Theory

set_option autoImplicit false

/-- What a caller can branch on. -/
inductive Visible where
  | code (code : ErrorCode)
  | value (value : Bytes)
  | flag (found : Bool)
  deriving DecidableEq

def visible : Reply → Visible
  | .status status => .code status.code
  | .value (.ok value) => .value value
  | .value (.error failure) => .code failure.val.code
  | .flag (.ok found) => .flag found
  | .flag (.error failure) => .code failure.val.code

/-- An in-memory storage that refuses empty values. -/
def guardedCall (storage : InMemoryStorage) : Call → Reply × InMemoryStorage
  | .set key value =>
      if value = [] then (.status (.invalidArgument (bytes "value must not be empty")), storage)
      else StorageEngine.call storage (.set key value)
  | c => StorageEngine.call storage c

/-- A set that the in-memory storage takes and the log cannot hold. -/
def SetsEmptyValue (c : Call) : Prop := c.key ≠ [] ∧ c = .set c.key []

instance (c : Call) : Decidable (SetsEmptyValue c) := by
  unfold SetsEmptyValue
  infer_instance

/-! ## One call -/

/-- A ledger whose number is not zero answers as its map does, but for sets with an
empty key or value. -/
theorem ledger_call_eq {ledger : Ledger} (counted : ledger.next ≠ 0) {c : Call}
    (filled : ∀ key value, c = .set key value → key ≠ [] ∧ value ≠ []) :
    (ledger.call c).1 = (StorageEngine.call ledger.storage c).1 ∧
      (ledger.call c).2.storage = (StorageEngine.call ledger.storage c).2 := by
  cases c with
  | set key value =>
      obtain ⟨named, some⟩ := filled key value rfl
      have valid := (validate_makeSetRecord ledger.next key value).2 ⟨counted, named, some⟩
      have call : StorageEngine.call ledger.storage (.set key value) =
          (.status .ok, ledger.storage.insert key value) := by
        have set : StorageEngine.set ledger.storage key value = _ := InMemoryStorage.set_of_ne named
        rw [StorageEngine.call, set]
      rw [call, Ledger.call, Ledger.intent, Ledger.validated, dif_pos valid]
      exact ⟨rfl, rfl⟩
  | remove key =>
      have call : StorageEngine.call ledger.storage (.remove key) =
          (.status (ledger.storage.remove key).1, (ledger.storage.remove key).2) := rfl
      rw [call, Ledger.call, Ledger.intent, Ledger.refusal]
      rcases ledger.storage.exists?_cases key with
        answer | ⟨named, absent, answer⟩ | ⟨named, ⟨value, found⟩, answer⟩
      · have empty : key = [] := by
          by_contra named
          rw [InMemoryStorage.exists?_of_ne named] at answer
          cases answer
        rw [answer, empty]
        exact ⟨rfl, rfl⟩
      · rw [answer, InMemoryStorage.remove_of_absent named absent]
        exact ⟨rfl, rfl⟩
      · have valid := (validate_makeDelRecord ledger.next key).2 ⟨counted, named⟩
        rw [answer, InMemoryStorage.remove_of_lookup named found]
        simp only [Ledger.validated, dif_pos valid]
        exact ⟨trivial, rfl⟩
  | get key => exact ⟨rfl, rfl⟩
  | exists? key => exact ⟨rfl, rfl⟩

/-- A set that does not validate is refused. -/
theorem ledger_set_refused {ledger : Ledger} {key value : Bytes}
    (empty : key = [] ∨ value = []) :
    visible (ledger.call (.set key value)).1 = .code .invalidArgument ∧
      (ledger.call (.set key value)).2 = ledger := by
  have invalid : (validateWalRecord (makeSetRecord ledger.next key value)).isOk = false := by
    rw [Bool.eq_false_iff, ne_eq, validate_makeSetRecord]
    rintro ⟨_, named, some⟩
    exact empty.elim named some
  have code := (validateWalRecord_code (makeSetRecord ledger.next key value)).resolve_left
    fun ok => by rw [ok] at invalid; cases invalid
  rw [Ledger.call, Ledger.intent, Ledger.validated, dif_neg (by simp [invalid])]
  exact ⟨congrArg Visible.code code, rfl⟩

/-- A ledger looks like a storage that refuses empty values. -/
theorem ledger_call_guarded {ledger : Ledger} (counted : ledger.next ≠ 0) (c : Call) :
    visible (ledger.call c).1 = visible (guardedCall ledger.storage c).1 ∧
      (ledger.call c).2.storage = (guardedCall ledger.storage c).2 := by
  cases c with
  | set key value =>
      rw [guardedCall]
      by_cases empty : value = []
      · obtain ⟨refused, same⟩ := @ledger_set_refused ledger key value (.inr empty)
        rw [if_pos empty, refused, same]
        exact ⟨rfl, rfl⟩
      · rw [if_neg empty]
        by_cases named : key = []
        · obtain ⟨refused, same⟩ := @ledger_set_refused ledger key value (.inl named)
          rw [refused, same, named]
          exact ⟨rfl, rfl⟩
        · obtain ⟨reply, storage⟩ := @ledger_call_eq ledger counted (.set key value)
            fun k v is => by cases is; exact ⟨named, empty⟩
          exact ⟨congrArg visible reply, storage⟩
  | get key => exact ⟨rfl, rfl⟩
  | exists? key => exact ⟨rfl, rfl⟩
  | remove key =>
      obtain ⟨reply, storage⟩ := @ledger_call_eq ledger counted (.remove key)
        fun k v is => by cases is
      exact ⟨congrArg visible reply, storage⟩

/-- The counter moves by one at most, and only with a mutation. -/
theorem ledger_call_next (ledger : Ledger) (c : Call) :
    (ledger.call c).2.next = ledger.next ∨
      c.isMutation = true ∧ (ledger.call c).2.next = ledger.next + 1 := by
  rw [Ledger.call]
  cases intent : ledger.intent c with
  | none => exact .inl rfl
  | some record => exact .inr ⟨(Ledger.intended_of_intent intent).mutation, rfl⟩

/-! ## Runs -/

/-- The counter is not zero and has room for this many mutations. -/
def Room (ledger : Ledger) (mutations : Nat) : Prop :=
  0 < ledger.next.toNat ∧ ledger.next.toNat + mutations < 2 ^ 64

theorem Room.counted {ledger : Ledger} {mutations : Nat} (room : Room ledger mutations) :
    ledger.next ≠ 0 := by
  intro zero
  have positive := room.1
  rw [zero] at positive
  exact absurd positive (by decide)

theorem Room.call {ledger : Ledger} {c : Call} {mutations : Nat}
    (room : Room ledger (mutations + if c.isMutation then 1 else 0)) :
    Room (ledger.call c).2 mutations := by
  obtain ⟨positive, bound⟩ := room
  rcases ledger_call_next ledger c with same | ⟨mutation, next⟩
  · refine ⟨by rw [same]; exact positive, ?_⟩
    rw [same]
    omega
  · rw [if_pos mutation] at bound
    have count : (ledger.next + 1).toNat = ledger.next.toNat + 1 := by
      rw [UInt64.toNat_add, UInt64.toNat_one]
      omega
    refine ⟨by rw [next, count]; omega, ?_⟩
    rw [next, count]
    omega

theorem run_guarded {ledger : Ledger} {calls : List Call}
    (room : Room ledger (calls.countP Call.isMutation)) :
    (Machine.run Ledger.call ledger calls).1.map visible =
        (Machine.run guardedCall ledger.storage calls).1.map visible ∧
      (Machine.after Ledger.call ledger calls).storage =
        Machine.after guardedCall ledger.storage calls := by
  induction calls generalizing ledger with
  | nil => exact ⟨rfl, rfl⟩
  | cons c rest ih =>
      rw [List.countP_cons] at room
      obtain ⟨reply, storage⟩ := ledger_call_guarded room.counted c
      obtain ⟨replies, last⟩ := ih room.call
      rw [storage] at replies last
      simp only [Machine.run_cons, Machine.after_cons, List.map_cons]
      exact ⟨by rw [reply, replies], last⟩

/-- Without a value to refuse, the guard does nothing. -/
theorem guardedCall_eq (storage : InMemoryStorage) {c : Call} (fine : ¬ SetsEmptyValue c) :
    visible (guardedCall storage c).1 = visible (StorageEngine.call storage c).1 ∧
      (guardedCall storage c).2 = (StorageEngine.call storage c).2 := by
  cases c with
  | set key value =>
      rw [guardedCall]
      split
      · next empty =>
          have unnamed : key = [] := by
            by_contra named
            exact fine ⟨named, by rw [empty]; rfl⟩
          rw [unnamed]
          exact ⟨rfl, rfl⟩
      · exact ⟨rfl, rfl⟩
  | get key => exact ⟨rfl, rfl⟩
  | remove key => exact ⟨rfl, rfl⟩
  | exists? key => exact ⟨rfl, rfl⟩

theorem guardedCall_ne (storage : InMemoryStorage) {c : Call} (met : SetsEmptyValue c) :
    visible (guardedCall storage c).1 ≠ visible (StorageEngine.call storage c).1 := by
  obtain ⟨named, shape⟩ := met
  have set : StorageEngine.call storage c = (.status .ok, storage.insert c.key []) := by
    have taken : StorageEngine.set storage c.key ([] : Bytes) = _ := InMemoryStorage.set_of_ne named
    rw [shape, StorageEngine.call, Call.key, taken]
  rw [set, shape]
  simp [guardedCall, visible, Status.invalidArgument, Status.ok]

/-- The guard is noticed exactly when a set meets it. -/
theorem guarded_iff (storage : InMemoryStorage) (calls : List Call) :
    ((Machine.run guardedCall storage calls).1.map visible =
        (Machine.run StorageEngine.call storage calls).1.map visible ∧
      Machine.after guardedCall storage calls =
        Machine.after StorageEngine.call storage calls) ↔
      ∀ c ∈ calls, ¬ SetsEmptyValue c := by
  induction calls generalizing storage with
  | nil => simp
  | cons c rest ih =>
      simp only [Machine.run_cons, Machine.after_cons, List.map_cons, List.cons.injEq,
        List.forall_mem_cons]
      by_cases met : SetsEmptyValue c
      · simp [met, guardedCall_ne storage met]
      · obtain ⟨reply, next⟩ := guardedCall_eq storage met
        simp only [met, reply, next, not_false_eq_true, true_and]
        exact ih _

namespace Node

/-- A clean run answers as its ledger does. -/
theorem run_ledger {node : Node} (synced : Synced node) {requests : List (Outcomes × Call)}
    (clean : ∀ request ∈ requests, request.1.NoFailure) :
    (Machine.run step node requests).1 =
        (Machine.run Ledger.call node.ledger (requests.map Prod.snd)).1 ∧
      (Machine.after step node requests).ledger =
        Machine.after Ledger.call node.ledger (requests.map Prod.snd) := by
  let alone := fun (l : Ledger) (request : Outcomes × Call) => l.call request.2
  have simulates : ∀ n l request, (Synced n ∧ n.ledger = l) → request.1.NoFailure →
      (step n request).1 = (alone l request).1 ∧
        Synced (step n request).2 ∧ (step n request).2.ledger = (alone l request).2 :=
    fun _ _ _ => step_simulates
  obtain ⟨replies, -, last⟩ := Machine.run_simulation step simulates ⟨synced, rfl⟩ clean
  have translated :=
    Machine.run_map Ledger.call (Prod.snd : Outcomes × Call → Call) node.ledger requests
  exact ⟨replies.trans (congrArg Prod.fst translated), last.trans (congrArg Prod.snd translated)⟩

/-- **The engines differ in empty values only.**  Started on an absent file, with nothing
failing and fewer than 2^64 - 1 mutations, the logged engine returns the codes, values and
booleans of an in-memory storage that refuses empty values, and holds its map; it agrees
with the plain in-memory storage exactly when no set gives a key an empty value. -/
theorem engines_interchangeable {filePath : Bytes} {options : WalBackedStorageOptions}
    {fs : FileSystem} {requests : List (Outcomes × Call)} (absent : fs.file = none)
    (recovered : (launch filePath options fs).1 = .ok)
    (clean : ∀ request ∈ requests, request.1.NoFailure)
    (few : (requests.countP fun request => request.2.isMutation) < 2 ^ 64 - 1) :
    let run := Machine.run step (launch filePath options fs).2 requests
    let calls := requests.map Prod.snd
    let guarded := Machine.run guardedCall InMemoryStorage.empty calls
    let plain := Machine.run StorageEngine.call InMemoryStorage.empty calls
    (run.1.map visible = guarded.1.map visible ∧ run.2.engine.storage = guarded.2) ∧
      ((run.1.map visible = plain.1.map visible ∧ run.2.engine.storage = plain.2) ↔
        ∀ c ∈ calls, ¬ SetsEmptyValue c) := by
  intro run calls guarded plain
  obtain ⟨synced, -, ledger⟩ := fresh_start absent recovered
  have mutations : calls.countP Call.isMutation =
      requests.countP fun request => request.2.isMutation := List.countP_map
  have room : Room (launch filePath options fs).2.ledger (calls.countP Call.isMutation) := by
    rw [ledger, mutations]
    refine ⟨by decide, ?_⟩
    rw [UInt64.toNat_one]
    omega
  obtain ⟨replies, last⟩ := run_ledger synced clean
  obtain ⟨same, storage⟩ := run_guarded room
  have empty : (launch filePath options fs).2.ledger.storage = .empty := by rw [ledger]
  rw [empty] at same storage
  have seen : run.1.map visible = guarded.1.map visible := (congrArg _ replies).trans same
  have held : run.2.engine.storage = guarded.2 :=
    (congrArg Ledger.storage last).trans storage
  refine ⟨⟨seen, held⟩, ?_⟩
  rw [seen, held]
  exact guarded_iff .empty calls

/-- A set of an empty value is refused and leaves the key absent; the calls around it
agree. -/
theorem engines_interchangeable_sets :
    (Machine.run step (launch (bytes "wal") {} (.holding none)).2
      [({ writes := [.accepted 2] }, .set (bytes "k") (bytes "v")),
        ({}, .set (bytes "l") []), ({}, .exists? (bytes "l"))]).1.map visible =
      [.code .ok, .code .invalidArgument, .flag false] := by
  have clean : ∀ request ∈ [(({ writes := [.accepted 2] } : Outcomes),
      Call.set (bytes "k") (bytes "v")), ({}, .set (bytes "l") []), ({}, .exists? (bytes "l"))],
      request.1.NoFailure := by
    intro request member
    rcases List.mem_cons.1 member with rfl | member
    · exact { Outcomes.noFailure_default with writes := by simp }
    · rcases List.mem_pair.1 member with rfl | rfl <;> exact Outcomes.noFailure_default
  have same := (@engines_interchangeable (bytes "wal") {} (.holding none) _ rfl (by decide) clean
    (by decide)).1.1
  rw [same]
  decide

/-- The in-memory storage takes an empty value, the logged engine does not. -/
theorem empty_value_divides :
    let start := (launch (bytes "wal") {} (.holding none)).2
    let logged := Machine.run step start [({}, .set (bytes "k") [])]
    let plain := Machine.run StorageEngine.call InMemoryStorage.empty [.set (bytes "k") []]
    (launch (bytes "wal") {} (.holding none)).1 = .ok ∧
      logged.1.map visible ≠ plain.1.map visible ∧ logged.2.engine.storage ≠ plain.2 := by
  decide

end Node

end AsterKV.Wal
