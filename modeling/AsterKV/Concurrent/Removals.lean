/-
# AsterKV.Concurrent.Removals -- removes of one key, racing

While nobody sets a present key and its del records get into the log, the removes of
that key have one winner.  A stretch of a schedule is first `Present`, where no
remove of the key has taken effect, and then `Removed`, where one has; the step
lemma moves from one to the other exactly where a remove changes the map.
-/
import AsterKV.Concurrent.Histories

namespace AsterKV.Concurrent

open AsterKV.Core AsterKV.Storage AsterKV.Wal Theory

set_option autoImplicit false

variable {C : Type}

/-- A set or remove of the key is in progress. -/
def Phase.mutates (phase : Phase) (key : Bytes) : Bool :=
  match phase.view with
  | some (c, _) => c.isMutation && c.key == key
  | none => false

theorem mutates_of_view {phase : Phase} {c : Call} {reply : Option Reply}
    (view : phase.view = some (c, reply)) (mutation : c.isMutation = true) :
    phase.mutates c.key = true := by
  rw [Phase.mutates, view]
  simp [mutation]

def isDelOf (key : Bytes) (record : WalRecord) : Bool := record.type == .del && record.key == key

/-- The del records of the key that were appended. -/
def appendedDels (key : Bytes) (seen : List (Observation C)) : Nat :=
  (appendedRecords seen).countP (isDelOf key)

def Observation.isWonRemove (key : Bytes) : Observation C → Bool
  | .returned _ c reply => c == .remove key && reply.isAcknowledged
  | _ => false

/-- The removes of the key that returned OK. -/
def wonRemoves (key : Bytes) (seen : List (Observation C)) : Nat :=
  seen.countP (Observation.isWonRemove key)

def Observation.isSetCall (key : Bytes) : Observation C → Bool
  | .called _ (.set k _) => k == key
  | _ => false

/-- An append for a remove of the key that did not return OK. -/
def Observation.isLostDel (key : Bytes) : Observation C → Bool
  | .append _ c _ status _ => c == .remove key && !status.isOk
  | _ => false

/-! ## The two stages -/

/-- A remove of the key took effect and was told so. -/
def Phase.Won (phase : Phase) (key : Bytes) : Prop :=
  ∃ reply, phase.view = some (.remove key, some reply) ∧ reply.isAcknowledged = true

structure Present (key : Bytes) (s : System C) (seen : List (Observation C)) : Prop where
  present : s.node.engine.storage.exists? key = .ok true
  dels : appendedDels key seen = s.inFlight.countP (isDelOf key)
  undone : ∀ client reply, (s.phase client).view ≠ some (.remove key, some reply)
  unreturned : ∀ client reply, Observation.returned client (.remove key) reply ∉ seen
  waiting : ∀ client, Observation.called client (.remove key) ∈ seen →
    (s.phase client).view = some (.remove key, none)

structure Removed (key : Bytes) (s : System C) (seen : List (Observation C)) : Prop where
  absent : s.node.engine.storage.exists? key = .ok false
  dels : appendedDels key seen = 1
  /-- One remove won; it is on its way back or has returned. -/
  winner :
    (wonRemoves key seen = 0 ∧
        ∃ winner, ∀ client, (s.phase client).Won key ↔ client = winner) ∨
      (wonRemoves key seen = 1 ∧ ∀ client, ¬ (s.phase client).Won key)

structure Contest (key : Bytes) (s : System C) (seen : List (Observation C)) : Prop where
  unset : ∀ client value reply, (s.phase client).view ≠ some (.set key value, reply)
  stage : Present key s seen ∨ Removed key s seen

theorem appendedDels_snoc (key : Bytes) (seen : List (Observation C)) (shown : Observation C) :
    appendedDels key (seen ++ [shown]) =
      appendedDels key seen + shown.record?.toList.countP (isDelOf key) := by
  rw [appendedDels, appendedDels, appendedRecords, filterMap_snoc, List.countP_append]
  rfl

theorem wonRemoves_snoc (key : Bytes) (seen : List (Observation C)) (shown : Observation C) :
    wonRemoves key (seen ++ [shown]) =
      wonRemoves key seen + if shown.isWonRemove key then 1 else 0 := by
  rw [wonRemoves, wonRemoves, List.countP_append, List.countP_singleton]

theorem wonRemoves_snoc_of_not {key : Bytes} {shown : Observation C}
    (lost : shown.isWonRemove key = false) (seen : List (Observation C)) :
    wonRemoves key (seen ++ [shown]) = wonRemoves key seen := by
  rw [wonRemoves_snoc, lost]
  rfl

theorem exists?_applyTo_of_ne (record : WalRecord) (storage : InMemoryStorage) {key : Bytes}
    (ne : key ≠ record.key) :
    (record.applyTo storage).exists? key = storage.exists? key := by
  unfold InMemoryStorage.exists?
  rw [lookup_applyTo_of_ne record storage ne]

/-- A record that is the key's del comes from a remove of the key. -/
theorem remove_of_isDelOf {ledger : Ledger} {c : Call} {record : ValidRecord} {key : Bytes}
    (intent : ledger.intent c = some record) (del : isDelOf key record.val = true) :
    c = .remove key ∧ ledger.storage.exists? key = .ok true := by
  obtain ⟨isDel, named⟩ : record.val.type = .del ∧ record.val.key = key := by
    simpa [isDelOf] using del
  have intended := Ledger.intended_of_intent intent
  rcases intended.shape with ⟨value, -, eq⟩ | ⟨shape, eq⟩
  · rw [eq] at isDel
    cases isDel
  · have sameKey : c.key = key := intended.key.symm.trans named
    rw [sameKey] at shape
    have found := intended.applicable isDel
    rw [named] at found
    have notEmpty : key ≠ [] := named ▸ record.key_ne_nil
    refine ⟨shape, ?_⟩
    rw [InMemoryStorage.exists?_of_ne notEmpty, found]
    rfl

section Steps

variable {key : Bytes} {s next : System C} {seen : List (Observation C)} {shown : Observation C}

theorem isWonRemove_of_unseen (event : shown.event? = none) : shown.isWonRemove key = false := by
  cases shown with
  | returned client c reply => cases event
  | silent | called | append => rfl

/-- A step in which no call starts, takes effect or ends. -/
theorem Contest.internal (contest : Contest key s seen) (event : shown.event? = none)
    (view : ∀ other, (next.phase other).view = (s.phase other).view)
    (storage : next.node.engine.storage = s.node.engine.storage)
    (dels : next.inFlight.countP (isDelOf key) =
      s.inFlight.countP (isDelOf key) + shown.record?.toList.countP (isDelOf key))
    (quiet : s.node.engine.storage.exists? key = .ok false →
      shown.record?.toList.countP (isDelOf key) = 0) : Contest key next (seen ++ [shown]) := by
  have won : ∀ other, (next.phase other).Won key ↔ (s.phase other).Won key := fun other => by
    rw [Phase.Won, Phase.Won, view]
  have noWin : shown.isWonRemove key = false := isWonRemove_of_unseen event
  refine ⟨fun client value reply => view client ▸ contest.unset client value reply, ?_⟩
  rcases contest.stage with before | after
  · refine Or.inl { present := storage ▸ before.present, dels := ?_, undone := ?_,
                    unreturned := ?_, waiting := ?_ }
    · rw [appendedDels_snoc, before.dels, dels]
    · exact fun client reply => view client ▸ before.undone client reply
    · intro client reply member
      rcases List.mem_append.1 member with old | new
      · exact before.unreturned client reply old
      · rw [← List.mem_singleton.1 new] at event
        cases event
    · intro client member
      rcases List.mem_append.1 member with old | new
      · exact (view client).trans (before.waiting client old)
      · rw [← List.mem_singleton.1 new] at event
        cases event
  · refine Or.inr { absent := storage ▸ after.absent, dels := ?_, winner := ?_ }
    · rw [appendedDels_snoc, after.dels, quiet after.absent]
    · rw [wonRemoves_snoc_of_not noWin]
      simpa only [won] using after.winner

/-- What a logged record does to the key when it is not its del: nothing. -/
theorem Contest.key_ne (contest : Contest key s seen) {client : C} {c : Call}
    (pending : (s.phase client).view = some (c, none)) {record : ValidRecord}
    (intent : s.node.ledger.intent c = some record) (notDel : isDelOf key record.val = false) :
    key ≠ record.val.key := by
  intro same
  have intended := Ledger.intended_of_intent intent
  have sameKey : c.key = key := intended.key.symm.trans same.symm
  rcases intended.shape with ⟨value, shape, -⟩ | ⟨-, eq⟩
  · rw [shape, sameKey] at pending
    exact contest.unset client value none pending
  · rw [eq, isDelOf] at notDel
    simp [makeDelRecord, sameKey] at notDel

/-- A key that is present while nobody changes it is about to be contested. -/
theorem contest_start (coherent : Coherent s)
    (present : s.node.engine.storage.exists? key = .ok true)
    (quiet : ∀ client, (s.phase client).mutates key = false) : Contest key s [] where
  unset client value reply view := by
    cases (quiet client).symm.trans (mutates_of_view view rfl)
  stage := by
    refine Or.inl { present := present, dels := ?_, undone := ?_, unreturned := ?_, waiting := ?_ }
    · show 0 = s.inFlight.countP (isDelOf key)
      symm
      rw [List.countP_eq_zero]
      intro record member isDel
      unfold System.inFlight System.ownerPhase at member
      split at member
      · next client owner =>
          cases phase : s.phase client with
          | appended c logged =>
              rw [phase] at member
              obtain ⟨valid, intent, rfl⟩ : ∃ valid, s.node.ledger.intent c = some valid ∧
                  valid.val = logged := by
                have knows := coherent.knows client
                rwa [phase] at knows
              rw [List.mem_singleton.1 member] at isDel
              obtain ⟨rfl, -⟩ := remove_of_isDelOf intent isDel
              have view : (s.phase client).view = some (.remove key, none) := by
                rw [phase]
                rfl
              cases (quiet client).symm.trans (mutates_of_view view rfl)
          | idle | called | holding | absent | present | applied | leaving | answered =>
              rw [phase] at member
              exact absurd member List.not_mem_nil
      · exact absurd member List.not_mem_nil
    · intro client reply view
      cases (quiet client).symm.trans (mutates_of_view view rfl)
    · exact fun _ _ member => absurd member List.not_mem_nil
    · exact fun _ member => absurd member List.not_mem_nil

variable [DecidableEq C]

/-- A call takes effect without an effect on the key. -/
theorem Contest.point (contest : Contest key s seen) {client : C} {c : Call} {reply : Reply}
    (event : shown.event? = none) (record : shown.record? = none)
    (pending : (s.phase client).view = some (c, none))
    (done : (next.phase client).view = some (c, some reply))
    (others : ∀ other, other ≠ client → next.phase other = s.phase other)
    (storage : next.node.engine.storage.exists? key = s.node.engine.storage.exists? key)
    (dels : next.inFlight.countP (isDelOf key) = s.inFlight.countP (isDelOf key))
    (other : c = .remove key →
      s.node.engine.storage.exists? key ≠ .ok true ∧ reply.isAcknowledged = false) :
    Contest key next (seen ++ [shown]) := by
  have noWin : shown.isWonRemove key = false := isWonRemove_of_unseen event
  have won : ∀ who, (next.phase who).Won key ↔ (s.phase who).Won key := by
    intro who
    by_cases same : who = client
    · subst same
      constructor
      · rintro ⟨answered, view, acknowledged⟩
        rw [done, Option.some.injEq, Prod.mk.injEq, Option.some.injEq] at view
        obtain ⟨isRemove, rfl⟩ := view
        cases acknowledged.symm.trans (other isRemove).2
      · rintro ⟨answered, view, -⟩
        rw [pending] at view
        cases view
    · rw [others who same]
  constructor
  · intro who value answered view
    by_cases same : who = client
    · subst same
      rw [done, Option.some.injEq, Prod.mk.injEq] at view
      rw [view.1] at pending
      exact contest.unset who value none pending
    · rw [others who same] at view
      exact contest.unset who value answered view
  rcases contest.stage with before | after
  · refine Or.inl { present := storage.trans before.present, dels := ?_, undone := ?_,
                    unreturned := ?_, waiting := ?_ }
    · rw [appendedDels_snoc, before.dels, dels, record]
      rfl
    · intro who answered view
      by_cases same : who = client
      · subst same
        rw [done, Option.some.injEq, Prod.mk.injEq] at view
        exact (other view.1).1 before.present
      · rw [others who same] at view
        exact before.undone who answered view
    · intro who answered member
      rcases List.mem_append.1 member with old | new
      · exact before.unreturned who answered old
      · rw [← List.mem_singleton.1 new] at event
        cases event
    · intro who member
      rcases List.mem_append.1 member with old | new
      · have waits := before.waiting who old
        by_cases same : who = client
        · subst same
          rw [pending, Option.some.injEq, Prod.mk.injEq] at waits
          exact absurd before.present (other waits.1).1
        · rw [others who same]
          exact waits
      · rw [← List.mem_singleton.1 new] at event
        cases event
  · refine Or.inr { absent := storage.trans after.absent, dels := ?_, winner := ?_ }
    · rw [appendedDels_snoc, after.dels, record]
      rfl
    · rw [wonRemoves_snoc_of_not noWin]
      simpa only [won] using after.winner

/-- The remove that changes the map wins. -/
theorem Contest.win (contest : Contest key s seen) {client : C}
    (present : s.node.engine.storage.exists? key = .ok true)
    (event : shown.event? = none) (record : shown.record? = none)
    (done : (next.phase client).view = some (.remove key, some (.status .ok)))
    (others : ∀ other, other ≠ client → next.phase other = s.phase other)
    (absent : next.node.engine.storage.exists? key = .ok false)
    (dels : s.inFlight.countP (isDelOf key) = 1) : Contest key next (seen ++ [shown]) := by
  have noWin : shown.isWonRemove key = false := isWonRemove_of_unseen event
  constructor
  · intro who value answered view
    by_cases same : who = client
    · subst same
      rw [done] at view
      cases view
    · rw [others who same] at view
      exact contest.unset who value answered view
  rcases contest.stage with before | after
  · refine Or.inr { absent := absent, dels := ?_, winner := Or.inl ⟨?_, client, ?_⟩ }
    · rw [appendedDels_snoc, before.dels, dels, record]
      rfl
    · rw [wonRemoves_snoc_of_not noWin, wonRemoves, List.countP_eq_zero]
      · intro seenBefore member isWon
        cases seenBefore with
        | returned who c reply =>
            have isRemove : c = .remove key := by
              simp [Observation.isWonRemove] at isWon
              exact isWon.1
            rw [isRemove] at member
            exact before.unreturned who reply member
        | silent | called | append => cases isWon
    · intro who
      constructor
      · rintro ⟨answered, view, -⟩
        by_contra other
        rw [others who other] at view
        exact before.undone who answered view
      · rintro rfl
        exact ⟨.status .ok, done, rfl⟩
  · cases present.symm.trans after.absent

theorem Contest.call (contest : Contest key s seen) {client : C} {c : Call}
    (idle : (s.phase client).view = none) (phase : (next.phase client).view = some (c, none))
    (others : ∀ other, other ≠ client → next.phase other = s.phase other)
    (storage : next.node.engine.storage = s.node.engine.storage)
    (inFlight : next.inFlight = s.inFlight) (unset : ∀ value, c ≠ .set key value) :
    Contest key next (seen ++ [.called client c]) := by
  have won : ∀ who, (next.phase who).Won key ↔ (s.phase who).Won key := by
    intro who
    by_cases same : who = client
    · subst same
      rw [Phase.Won, Phase.Won, phase, idle]
      simp
    · rw [others who same]
  constructor
  · intro who value answered view
    by_cases same : who = client
    · subst same
      rw [phase, Option.some.injEq, Prod.mk.injEq] at view
      exact unset value view.1
    · rw [others who same] at view
      exact contest.unset who value answered view
  rcases contest.stage with before | after
  · refine Or.inl { present := storage ▸ before.present, dels := ?_, undone := ?_,
                    unreturned := ?_, waiting := ?_ }
    · rw [appendedDels_snoc, before.dels, inFlight]
      rfl
    · intro who answered view
      by_cases same : who = client
      · subst same
        rw [phase] at view
        cases (Prod.mk.inj (Option.some.inj view)).2
      · rw [others who same] at view
        exact before.undone who answered view
    · intro who answered member
      rcases List.mem_append.1 member with old | new
      · exact before.unreturned who answered old
      · cases List.mem_singleton.1 new
    · intro who member
      rcases List.mem_append.1 member with old | new
      · have waits := before.waiting who old
        have ne : who ≠ client := by
          rintro rfl
          cases idle.symm.trans waits
        rw [others who ne]
        exact waits
      · obtain ⟨rfl, rfl⟩ := Observation.called.inj (List.mem_singleton.1 new)
        exact phase
  · refine Or.inr { absent := storage ▸ after.absent, dels := ?_, winner := ?_ }
    · rw [appendedDels_snoc, after.dels]
      rfl
    · rw [wonRemoves_snoc_of_not rfl]
      simpa only [won] using after.winner

theorem Contest.ret (contest : Contest key s seen) {client : C} {c : Call} {reply : Reply}
    (done : (s.phase client).view = some (c, some reply)) (phase : (next.phase client).view = none)
    (others : ∀ other, other ≠ client → next.phase other = s.phase other)
    (storage : next.node.engine.storage = s.node.engine.storage)
    (inFlight : next.inFlight = s.inFlight) :
    Contest key next (seen ++ [.returned client c reply]) := by
  have quiet : ¬ (next.phase client).Won key := by
    rintro ⟨answered, view, -⟩
    rw [phase] at view
    cases view
  constructor
  · intro who value answered view
    by_cases same : who = client
    · subst same
      rw [phase] at view
      cases view
    · rw [others who same] at view
      exact contest.unset who value answered view
  rcases contest.stage with before | after
  · have other : c ≠ .remove key := by
      rintro rfl
      exact before.undone client reply done
    refine Or.inl { present := storage ▸ before.present, dels := ?_, undone := ?_,
                    unreturned := ?_, waiting := ?_ }
    · rw [appendedDels_snoc, before.dels, inFlight]
      rfl
    · intro who answered view
      by_cases same : who = client
      · subst same
        rw [phase] at view
        cases view
      · rw [others who same] at view
        exact before.undone who answered view
    · intro who answered member
      rcases List.mem_append.1 member with old | new
      · exact before.unreturned who answered old
      · exact other (Observation.returned.inj (List.mem_singleton.1 new)).2.1.symm
    · intro who member
      rcases List.mem_append.1 member with old | new
      · have waits := before.waiting who old
        have ne : who ≠ client := by
          rintro rfl
          rw [done] at waits
          cases (Prod.mk.inj (Option.some.inj waits)).2
        rw [others who ne]
        exact waits
      · cases List.mem_singleton.1 new
  · refine Or.inr { absent := storage ▸ after.absent, dels := ?_, winner := ?_ }
    · rw [appendedDels_snoc, after.dels]
      rfl
    · by_cases wins : (s.phase client).Won key
      · -- the winner returns
        obtain ⟨answered, view, acknowledged⟩ := wins
        rw [done, Option.some.injEq, Prod.mk.injEq, Option.some.injEq] at view
        obtain ⟨rfl, rfl⟩ := view
        rcases after.winner with ⟨none, winner, only⟩ | ⟨-, nobody⟩
        · refine Or.inr ⟨?_, fun who won => ?_⟩
          · rw [wonRemoves_snoc, none]
            simp [Observation.isWonRemove, acknowledged]
          · by_cases same : who = client
            · exact quiet (same ▸ won)
            · rw [others who same] at won
              have here := (only client).1 ⟨reply, done, acknowledged⟩
              exact same (((only who).1 won).trans here.symm)
        · exact absurd ⟨reply, done, acknowledged⟩ (nobody client)
      · have loses : (Observation.returned client c reply).isWonRemove key = false := by
          by_contra isWon
          apply wins
          simp only [Observation.isWonRemove, Bool.not_eq_false, Bool.and_eq_true,
            beq_iff_eq] at isWon
          exact ⟨reply, by rw [done, isWon.1], isWon.2⟩
        have won : ∀ who, (next.phase who).Won key ↔ (s.phase who).Won key := by
          intro who
          by_cases same : who = client
          · subst same
            exact iff_of_false quiet wins
          · rw [others who same]
        rw [wonRemoves_snoc_of_not loses]
        simpa only [won] using after.winner

/-- A mutation that is decided without a record in the log. -/
theorem Contest.decided (contest : Contest key s seen) (coherent : Coherent s) {client : C}
    {c : Call} {reply : Reply} {node : Node} (waiting : (s.phase client).Waiting c)
    (ledger : node.ledger = s.node.ledger)
    (event : shown.event? = none) (record : shown.record? = none)
    (other : c = .remove key →
      s.node.engine.storage.exists? key ≠ .ok true ∧ reply.isAcknowledged = false) :
    Contest key ({ s with node := node }.moveTo client (.leaving c reply)) (seen ++ [shown]) := by
  have before := coherent.ownerPhase_eq waiting.inside
  have after : ({ s with node := node }.moveTo client (.leaving c reply)).ownerPhase =
      .leaving c reply := coherent.ownerPhase_moved waiting.inside _ _
  have storage : node.engine.storage = s.node.engine.storage := congrArg Ledger.storage ledger
  refine contest.point event record waiting.view (by rw [System.moveTo_phase_self]; rfl)
    (fun other ne => System.moveTo_phase_of_ne _ ne _)
    (congrArg (InMemoryStorage.exists? · key) storage) ?_ other
  rw [System.inFlight, System.inFlight, before, after, waiting.inFlight]
  rfl

/-- **One turn of a contest.** -/
theorem Contest.transition (contest : Contest key s seen) (coherent : Coherent s) {client : C}
    (transition : Transition client s shown next)
    (noSet : shown.isSetCall key = false) (getsThrough : shown.isLostDel key = false) :
    Contest key next (seen ++ [shown]) := by
  cases transition with
  | stay => exact contest.internal rfl (fun _ => rfl) rfl rfl fun _ => rfl
  | call c idle =>
      have same := coherent.ownerPhase_outside (by rw [idle]; rfl) (.called c)
      exact contest.call (by rw [idle]; rfl) (by rw [System.moveTo_phase_self]; rfl)
        (fun other ne => System.moveTo_phase_of_ne _ ne _) rfl (congrArg Phase.inFlight same)
        fun value is => by simp [is, Observation.isSetCall] at noSet
  | read c called reads =>
      have same := coherent.ownerPhase_outside (by rw [called]; rfl)
        (.answered c (s.node.ledger.refusal c))
      refine contest.point rfl rfl (by rw [called]; rfl) (by rw [System.moveTo_phase_self]; rfl)
        (fun other ne => System.moveTo_phase_of_ne _ ne _) rfl ?_ ?_
      · rw [System.inFlight, System.inFlight, same]
      · rintro rfl
        cases reads
  | acquire c called mutation nobody =>
      have before := System.ownerPhase_of_free nobody
      have after : ({ s with owner := some client }.moveTo client (.holding c)).ownerPhase =
          .holding c := System.ownerPhase_moveTo_of_owner rfl _
      refine contest.internal rfl (view_moveTo (by rw [called]; rfl)) rfl ?_ fun _ => rfl
      rw [System.inFlight, System.inFlight, before, after]
      rfl
  | look removed found holding answer =>
      have before := coherent.ownerPhase_eq (by rw [holding]; rfl)
      have after := coherent.ownerPhase_moved (by rw [holding]; rfl) s.node
        (if found then .present removed else .absent removed)
      refine contest.internal rfl (view_moveTo (by rw [holding]; cases found <;> rfl)) rfl ?_
        fun _ => rfl
      rw [System.inFlight, System.inFlight, before, after, holding]
      cases found <;> rfl
  | refuse c node waiting intent kept missing =>
      refine contest.decided coherent waiting kept.ledger rfl rfl ?_
      rintro rfl
      exact ⟨missing, Ledger.isAcknowledged_refusal intent⟩
  | reject c record status node waiting intent refusal invalid kept =>
      have rejected : status.isOk = false := by simp [Status.isOk, invalid]
      refine contest.decided coherent waiting kept.ledger rfl
        (by simp [Observation.record?, rejected]) ?_
      rintro rfl
      simp [Observation.isLostDel, rejected] at getsThrough
  | fail c record status written node waiting intent unavailable ready ledger content =>
      have failed : status.isOk = false := by simp [Status.isOk, unavailable]
      refine contest.decided coherent waiting ledger rfl (by simp [Observation.record?, failed]) ?_
      rintro rfl
      simp [Observation.isLostDel, failed] at getsThrough
  | append c record node waiting intent ready ledger content =>
      have before := coherent.ownerPhase_eq waiting.inside
      have after : ({ s with node := node }.moveTo client (.appended c record.val)).ownerPhase =
          .appended c record.val := coherent.ownerPhase_moved waiting.inside _ _
      have storage : node.engine.storage = s.node.engine.storage := congrArg Ledger.storage ledger
      refine contest.internal rfl (@view_moveTo C { s with node := node } _ client _
        (by rw [waiting.view]; rfl)) storage ?_ ?_
      · rw [System.inFlight, System.inFlight, before, after, waiting.inFlight]
        exact (Nat.zero_add _).symm
      · intro absent
        have notDel : isDelOf key record.val = false := by
          by_contra isDel
          have found := (remove_of_isDelOf intent (by simpa using isDel)).2
          cases absent.symm.trans found
        simp [Observation.record?, notDel]
  | apply c record appended intent =>
      have before := coherent.ownerPhase_eq (by rw [appended]; rfl)
      let moved : System C :=
        { s with node.engine.storage := record.val.applyTo s.node.engine.storage }.moveTo client
          (.applied c)
      have after : moved.ownerPhase = .applied c := coherent.ownerPhase_moved (by rw [appended]; rfl) _ _
      have pending : (s.phase client).view = some (c, none) := by
        rw [appended]
        rfl
      have done : (moved.phase client).view = some (c, some (.status .ok)) := by
        rw [System.moveTo_phase_self]
        rfl
      have inFlight : s.inFlight = [record.val] := by
        rw [System.inFlight, before, appended]
        rfl
      have others : ∀ other, other ≠ client → moved.phase other = s.phase other :=
        fun other ne => System.moveTo_phase_of_ne _ ne _
      cases isDel : isDelOf key record.val with
      | true =>
          obtain ⟨rfl, found⟩ := remove_of_isDelOf intent isDel
          obtain ⟨del, named⟩ : record.val.type = .del ∧ record.val.key = key := by
            simpa [isDelOf] using isDel
          refine contest.win found rfl rfl done others ?_ (by rw [inFlight]; simp [isDel])
          have gone := lookup_applyTo_self record.val s.node.engine.storage
          rw [del] at gone
          have notEmpty : key ≠ [] := named ▸ record.key_ne_nil
          show (record.val.applyTo s.node.engine.storage).exists? key = .ok false
          rw [InMemoryStorage.exists?_of_ne notEmpty, ← named, gone]
          rfl
      | false =>
          refine contest.point rfl rfl pending done others
            (exists?_applyTo_of_ne _ _ (contest.key_ne pending intent isDel)) ?_ ?_
          · rw [inFlight, System.inFlight, after]
            simp [Phase.inFlight, isDel]
          · rintro rfl
            have ne := contest.key_ne pending intent isDel
            exact absurd (Ledger.intended_of_intent intent).key.symm ne
  | count c applied =>
      have before := coherent.ownerPhase_eq (by rw [applied]; rfl)
      let moved : System C :=
        { s with
            node.engine.nextSequenceNumber := s.node.engine.nextSequenceNumber + 1 }.moveTo client
          (.leaving c (.status .ok))
      have after : moved.ownerPhase = .leaving c (.status .ok) :=
        coherent.ownerPhase_moved (by rw [applied]; rfl) _ _
      refine @Contest.internal C key s moved seen _ contest rfl
        (view_moveTo (by rw [applied]; rfl)) rfl ?_ fun _ => rfl
      rw [System.inFlight, System.inFlight, before, after, applied]
      rfl
  | release c reply leaving =>
      have before := coherent.ownerPhase_eq (by rw [leaving]; rfl)
      have after : ({ s with owner := none }.moveTo client (.answered c reply)).ownerPhase = .idle :=
        System.ownerPhase_of_free rfl
      refine contest.internal rfl (view_moveTo (by rw [leaving]; rfl)) rfl ?_ fun _ => rfl
      rw [System.inFlight, System.inFlight, before, after, leaving]
      rfl
  | ret c reply answered =>
      have same := coherent.ownerPhase_outside (by rw [answered]; rfl) .idle
      exact contest.ret (by rw [answered]; rfl) (by rw [System.moveTo_phase_self]; rfl)
        (fun other ne => System.moveTo_phase_of_ne _ ne _) rfl (congrArg Phase.inFlight same)

/-- **Racing removes have one winner.**  From a state in which the key is present and
nobody is changing it, through any turns in which no set of it is called and its del
records get into the log, at most one remove of it returns OK and at most one del
record is appended; once all its removes have returned it is exactly one of each. -/
theorem one_remove_wins (coherent : Coherent s)
    (present : s.node.engine.storage.exists? key = .ok true)
    (quiet : ∀ client, (s.phase client).mutates key = false) (turns : List (C × Directive))
    (noSet : ∀ shown ∈ (Machine.run System.step s turns).1, shown.isSetCall key = false)
    (getsThrough : ∀ shown ∈ (Machine.run System.step s turns).1, shown.isLostDel key = false) :
    let seen := (Machine.run System.step s turns).1
    wonRemoves key seen ≤ 1 ∧ appendedDels key seen ≤ 1 ∧
      ((∃ client, Observation.called client (.remove key) ∈ seen) →
        (∀ client, ((Machine.after System.step s turns).phase client).mutates key = false) →
        wonRemoves key seen = 1 ∧ appendedDels key seen = 1) := by
  intro seen
  have all := Machine.run_accumulates System.step turns
    (P := fun s seen => Coherent s ∧
    ((∀ shown ∈ seen, shown.isSetCall key = false) →
      (∀ shown ∈ seen, shown.isLostDel key = false) → Contest key s seen))
    (fun s seen turn _ => by
      rintro ⟨coherent, contested⟩
      have transition := step_transition coherent turn
      refine ⟨transition.coherent coherent, fun noSet getsThrough => ?_⟩
      have contest := contested
        (fun shown member => noSet shown (List.mem_append_left _ member))
        (fun shown member => getsThrough shown (List.mem_append_left _ member))
      have last : (s.step turn).1 ∈ seen ++ [(s.step turn).1] :=
        List.mem_append_right _ List.mem_cons_self
      exact contest.transition coherent transition (noSet _ last) (getsThrough _ last))
    ⟨coherent, fun _ _ => contest_start coherent present quiet⟩
  rw [List.nil_append] at all
  obtain ⟨reached, contested⟩ := all
  rcases (contested noSet getsThrough).stage with before | after
  · have none : wonRemoves key seen = 0 := by
      rw [wonRemoves, List.countP_eq_zero]
      intro shown member isWon
      cases shown with
      | returned who c reply =>
          have isRemove : c = .remove key := by
            simp [Observation.isWonRemove] at isWon
            exact isWon.1
          rw [isRemove] at member
          exact before.unreturned who reply member
      | silent | called | append => cases isWon
    have few : appendedDels key seen ≤ 1 := by
      have dels : appendedDels key seen = _ := before.dels
      rw [dels]
      refine (List.countP_le_length).trans ?_
      unfold System.inFlight
      cases (Machine.after System.step s turns).ownerPhase with
      | appended => exact Nat.le_refl 1
      | idle | called | holding | absent | present | applied | leaving | answered =>
          exact Nat.zero_le 1
    refine ⟨by omega, few, ?_⟩
    rintro ⟨client, called⟩ returned
    cases (returned client).symm.trans (mutates_of_view (before.waiting client called) rfl)
  · have dels : appendedDels key seen = 1 := after.dels
    rcases after.winner with ⟨none, winner, only⟩ | ⟨one, -⟩
    · have none : wonRemoves key seen = 0 := none
      refine ⟨by omega, by omega, fun _ returned => ?_⟩
      obtain ⟨reply, view, -⟩ := (only winner).2 rfl
      cases (returned winner).symm.trans (mutates_of_view view rfl)
    · have one : wonRemoves key seen = 1 := one
      exact ⟨by omega, by omega, fun _ _ => ⟨one, dels⟩⟩

end Steps

end AsterKV.Concurrent
