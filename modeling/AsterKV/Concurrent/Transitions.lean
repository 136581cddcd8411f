/-
# AsterKV.Concurrent.Transitions -- what one turn can do

`Transition` lists the effects a turn can have together with all that is known when
it has them; `step_transition` is the only place where the steps of the threads are
unfolded.  Everything said about schedules is a case analysis on it.
-/
import AsterKV.Concurrent.Clients

namespace AsterKV.Concurrent

open AsterKV.Core AsterKV.Storage AsterKV.Wal Theory

set_option autoImplicit false

variable {C : Type} [DecidableEq C]

/-! ## What a turn can do -/

/-- The engine holds and the file has what they did. -/
structure Kept (before after : Node) : Prop where
  ready : Node.Ready after
  ledger : after.ledger = before.ledger
  content : after.fs.content = before.fs.content

/-- **All that one turn of a client can do**, with what is known then. -/
inductive Transition (client : C) (s : System C) :
    Observation C → System C → Prop where
  | stay : Transition client s .silent s
  | call (c : Call) (idle : s.phase client = .idle) :
      Transition client s (.called client c) (s.moveTo client (.called c))
  | read (c : Call) (called : s.phase client = .called c) (reads : c.isMutation = false) :
      Transition client s .silent
        (s.moveTo client (.answered c (s.node.ledger.refusal c)))
  | acquire (c : Call) (called : s.phase client = .called c) (mutation : c.isMutation = true)
      (free : s.owner = none) :
      Transition client s .silent
        ({ s with owner := some client }.moveTo client (.holding c))
  | look (key : Bytes) (found : Bool) (holding : s.phase client = .holding (.remove key))
      (answer : s.node.engine.storage.exists? key = .ok found) :
      Transition client s .silent
        (s.moveTo client (if found then .present key else .absent key))
  /-- The call logs nothing, and no existence test told it otherwise. -/
  | refuse (c : Call) (next : Node) (waiting : (s.phase client).Waiting c)
      (intent : s.node.ledger.intent c = none) (kept : Kept s.node next)
      (missing : s.node.engine.storage.exists? c.key ≠ .ok true) :
      Transition client s .silent
        ({ s with node := next }.moveTo client (.leaving c (s.node.ledger.refusal c)))
  /-- The record does not validate. -/
  | reject (c : Call) (record : WalRecord) (status : Status) (next : Node)
      (waiting : (s.phase client).Waiting c) (intent : s.node.ledger.intent c = none)
      (refusal : s.node.ledger.refusal c = .status status) (invalid : status.code = .invalidArgument)
      (kept : Kept s.node next) :
      Transition client s (.append client c record status [])
        ({ s with node := next }.moveTo client (.leaving c (.status status)))
  | fail (c : Call) (record : ValidRecord) (status : Status) (written : Bytes) (next : Node)
      (waiting : (s.phase client).Waiting c) (intent : s.node.ledger.intent c = some record)
      (unavailable : status.code = .unavailable) (ready : Node.Ready next)
      (ledger : next.ledger = s.node.ledger)
      (content : next.fs.content = s.node.fs.content ++ written) :
      Transition client s (.append client c record.val status written)
        ({ s with node := next }.moveTo client (.leaving c (.status status)))
  | append (c : Call) (record : ValidRecord) (next : Node)
      (waiting : (s.phase client).Waiting c) (intent : s.node.ledger.intent c = some record)
      (ready : Node.Ready next) (ledger : next.ledger = s.node.ledger)
      (content : next.fs.content = s.node.fs.content ++ recordLine record.val) :
      Transition client s (.append client c record.val .ok (recordLine record.val))
        ({ s with node := next }.moveTo client (.appended c record.val))
  | apply (c : Call) (record : ValidRecord) (appended : s.phase client = .appended c record.val)
      (intent : s.node.ledger.intent c = some record) :
      Transition client s .silent
        ({ s with
            node.engine.storage := record.val.applyTo s.node.engine.storage }.moveTo client
          (.applied c))
  | count (c : Call) (applied : s.phase client = .applied c) :
      Transition client s .silent
        ({ s with
            node.engine.nextSequenceNumber := s.node.engine.nextSequenceNumber + 1 }.moveTo client
          (.leaving c (.status .ok)))
  | release (c : Call) (reply : Reply) (leaving : s.phase client = .leaving c reply) :
      Transition client s .silent
        ({ s with owner := none }.moveTo client (.answered c reply))
  | ret (c : Call) (reply : Reply) (answered : s.phase client = .answered c reply) :
      Transition client s (.returned client c reply) (s.moveTo client .idle)

/-! ## The append step -/

/-- The engine's call on the inner storage, once the record is logged. -/
theorem call_of_intent {ledger : Ledger} {c : Call} {record : ValidRecord}
    (intent : ledger.intent c = some record) :
    StorageEngine.call ledger.storage c =
      (.status .ok, record.val.applyTo ledger.storage) := by
  have named := record.key_ne_nil
  have intended := Ledger.intended_of_intent intent
  rcases intended.shape with ⟨value, shape, eq⟩ | ⟨shape, eq⟩
  · have named : c.key ≠ [] := by rwa [eq] at named
    have set : StorageEngine.set ledger.storage c.key value = _ := InMemoryStorage.set_of_ne named
    rw [shape, eq]
    simp only [StorageEngine.call, set]
    rfl
  · have named : c.key ≠ [] := by rwa [eq] at named
    have applicable := intended.applicable
    rw [eq] at applicable
    obtain ⟨value, found⟩ := Option.isSome_iff_exists.1 (applicable rfl)
    have found : ledger.storage.lookup c.key = some value := found
    have remove : StorageEngine.remove ledger.storage c.key = _ :=
      InMemoryStorage.remove_of_lookup named found
    rw [shape, eq]
    simp only [StorageEngine.call, remove]
    rfl

theorem append_valid (engine : WalBackedStorage) (record : ValidRecord) (fs : FileSystem) :
    engine.append record.val fs =
      ((engine.writer.appendRecord record.val fs).1,
        { engine with writer := (engine.writer.appendRecord record.val fs).2.1 },
        (engine.writer.appendRecord record.val fs).2.2) := by
  simp [WalBackedStorage.append, record.property]

theorem append_invalid (engine : WalBackedStorage) {record : WalRecord}
    (invalid : (validateWalRecord record).isOk = false) (fs : FileSystem) :
    engine.append record fs = (validateWalRecord record, engine, fs) := by
  simp [WalBackedStorage.append, invalid]

/-- The node after an append, whatever the append returned. -/
theorem ready_appended {node : Node} (ready : Node.Ready node) {outcomes : Outcomes} {line : Bytes}
    {status : Status} {writer : WalFileWriter} {after : FileSystem}
    (appended : WalFileWriter.Appended node.engine.writer line (node.facing outcomes).fs status
      writer after) : Node.Ready ⟨{ node.engine with writer := writer }, after⟩ :=
  have isOpen : writer.isOpen = true := by
    rw [appended.isOpen, WalFileWriter.canOpen, ready.isOpen, Bool.true_or]
  { named := ready.named
    writerPath := appended.filePath.trans ready.writerPath
    notClosed := appended.notClosed
    isOpen := isOpen
    present := appended.present isOpen
    parent := appended.parent ▸ ready.parent }

theorem append_eq {s : System C} {client : C} {c : Call} {record : WalRecord}
    {outcomes : Outcomes} {status : Status} {engine : WalBackedStorage} {after : FileSystem}
    (result : s.node.engine.append record (s.node.facing outcomes).fs = (status, engine, after)) :
    s.append client c record outcomes =
      (.append client c record status (after.content.drop s.node.fs.content.length),
        { s with node := ⟨engine, after⟩ }.moveTo client
          (if status.isOk then .appended c record else .leaving c (.status status))) := by
  have result : (s.node.facing outcomes).engine.append record (s.node.facing outcomes).fs =
      (status, engine, after) := result
  simp only [System.append, result]
  rfl

/-- The append of a waiting call, whether its record validates or not. -/
theorem append_transition {s : System C} (ready : Node.Ready s.node) {client : C} {c : Call}
    {record : WalRecord} (waiting : (s.phase client).Waiting c)
    (intent : s.node.ledger.intent c = Ledger.validated record)
    (refusal : (validateWalRecord record).isOk = false →
      s.node.ledger.refusal c = .status (validateWalRecord record)) (outcomes : Outcomes) :
    Transition client s (s.append client c record outcomes).1
      (s.append client c record outcomes).2 := by
  by_cases valid : (validateWalRecord record).isOk = true
  · have intent : s.node.ledger.intent c = some ⟨record, valid⟩ := by
      rw [intent, Ledger.validated, dif_pos valid]
    have appended := WalFileWriter.appendRecord_spec (Node.usable ready outcomes) ⟨record, valid⟩
    have taken := append_valid s.node.engine ⟨record, valid⟩ (s.node.facing outcomes).fs
    obtain ⟨⟨status, writer, after⟩, result⟩ :
        ∃ result, s.node.engine.writer.appendRecord record (s.node.facing outcomes).fs = result :=
      ⟨_, rfl⟩
    simp only [result] at appended taken
    rw [append_eq taken]
    have written : after.content.drop s.node.fs.content.length =
        s.node.engine.writer.accepted outcomes (recordLine record) := by
      rw [appended.content]
      exact List.drop_left
    rw [written]
    have next := ready_appended ready appended
    rcases appended.system with rfl | unavailable
    · have succeeds : s.node.engine.writer.appendSucceeds outcomes (recordLine record) = true :=
        appended.isOk.symm
      have content : after.content = s.node.fs.content ++ recordLine record := by
        rw [appended.content]
        exact congrArg _ (WalFileWriter.accepted_of_appendSucceeds succeeds)
      rw [WalFileWriter.accepted_of_appendSucceeds succeeds]
      exact .append c ⟨record, valid⟩ _ waiting intent next rfl content
    · have failed : status.isOk = false := by simp [Status.isOk, unavailable]
      rw [failed]
      exact .fail c ⟨record, valid⟩ status _ _ waiting intent unavailable next rfl appended.content
  · have invalid : (validateWalRecord record).isOk = false := by simpa using valid
    have intent : s.node.ledger.intent c = none := by
      rw [intent, Ledger.validated, dif_neg valid]
    rw [append_eq (append_invalid s.node.engine invalid (s.node.facing outcomes).fs), invalid]
    have written : (s.node.facing outcomes).fs.content.drop s.node.fs.content.length = [] :=
      List.drop_length
    rw [written]
    have code : (validateWalRecord record).code = .invalidArgument := by
      rcases validateWalRecord_code record with ok | code
      · exact absurd (by rw [ok]; rfl) valid
      · exact code
    exact .reject c record _ _ waiting intent (refusal invalid) code
      ⟨Node.ready_facing ready outcomes, rfl, rfl⟩

/-! ## Every step -/

theorem advance_transition {s : System C} (coherent : Coherent s) (client : C)
    (outcomes : Outcomes) :
    Transition client s (s.advance client outcomes).1
      (s.advance client outcomes).2 := by
  have ready := coherent.ready
  have knows := coherent.knows client
  unfold System.advance
  cases phase : s.phase client with
  | idle => exact .stay
  | called c =>
      cases mutation : c.isMutation with
      | true =>
          cases owner : s.owner with
          | none =>
              have acquire := @Transition.acquire C _ client s c phase mutation owner
              simpa only [mutation, if_true, owner] using acquire
          | some holder =>
              have waits := @Transition.stay C _ client s
              simpa only [mutation, if_true, owner] using waits
      | false =>
          cases c with
          | set key value => cases mutation
          | remove key => cases mutation
          | get key => exact .read (.get key) phase rfl
          | exists? key => exact .read (.exists? key) phase rfl
  | holding c =>
      have waiting : (s.phase client).Waiting c := by
        rw [phase]
        exact ⟨rfl, rfl, rfl, rfl⟩
      cases c with
      | set key value => exact append_transition ready waiting rfl (fun _ => rfl) outcomes
      | remove key =>
          rcases s.node.engine.storage.exists?_cases key with
            answer | ⟨-, -, answer⟩ | ⟨-, -, answer⟩
          · have refused : s.node.ledger.intent (.remove key) = none := by
              rw [Ledger.intent, show s.node.ledger.storage = s.node.engine.storage from rfl, answer]
            have reply : s.node.ledger.refusal (.remove key) =
                .status InMemoryStorage.emptyKeyStatus := by
              rw [Ledger.refusal, show s.node.ledger.storage = s.node.engine.storage from rfl, answer]
            have refuse := @Transition.refuse C _ client s (.remove key) s.node
              waiting refused ⟨ready, rfl, rfl⟩ (by rw [Call.key, answer]; exact fun h => by cases h)
            rw [reply] at refuse
            simp only [answer]
            exact refuse
          · have look := @Transition.look C _ client s key false phase answer
            simp only [answer]
            exact look
          · have look := @Transition.look C _ client s key true phase answer
            simp only [answer]
            exact look
      | get key =>
          rw [phase] at knows
          cases knows
      | exists? key =>
          rw [phase] at knows
          cases knows
  | absent key =>
      rw [phase] at knows
      have knows : s.node.engine.storage.exists? key = .ok false := knows
      have waiting : (s.phase client).Waiting (.remove key) := by
        rw [phase]
        exact ⟨rfl, rfl, rfl, rfl⟩
      have refused : s.node.ledger.intent (.remove key) = none := by
        rw [Ledger.intent, show s.node.ledger.storage = s.node.engine.storage from rfl, knows]
      have removed : s.node.engine.storage.remove key =
          (InMemoryStorage.keyNotFoundStatus, s.node.engine.storage) := by
        rcases s.node.engine.storage.exists?_cases key with
          answer | ⟨named, missing, -⟩ | ⟨-, -, answer⟩
        · cases knows.symm.trans answer
        · exact InMemoryStorage.remove_of_absent named missing
        · cases knows.symm.trans answer
      have reply : s.node.ledger.refusal (.remove key) =
          .status InMemoryStorage.keyNotFoundStatus := by
        rw [Ledger.refusal, show s.node.ledger.storage = s.node.engine.storage from rfl, knows,
          removed]
      have refuse := @Transition.refuse C _ client s (.remove key) s.node
        waiting refused ⟨ready, rfl, rfl⟩ (by rw [Call.key, knows]; exact fun h => by cases h)
      rw [reply] at refuse
      simp only [removed]
      exact refuse
  | present key =>
      rw [phase] at knows
      have knows : s.node.ledger.storage.exists? key = .ok true := knows
      have waiting : (s.phase client).Waiting (.remove key) := by
        rw [phase]
        exact ⟨rfl, rfl, rfl, rfl⟩
      refine append_transition ready waiting ?_ (fun _ => ?_) outcomes
      · rw [Ledger.intent, knows]
        rfl
      · rw [Ledger.refusal, knows]
        rfl
  | appended c record =>
      rw [phase] at knows
      obtain ⟨valid, intent, rfl⟩ := knows
      have called := call_of_intent intent
      rw [show s.node.ledger.storage = s.node.engine.storage from rfl] at called
      simp only [called]
      exact .apply c valid phase intent
  | applied c => exact .count c phase
  | leaving c reply => exact .release c reply phase
  | answered c reply => exact .ret c reply phase

/-- **Every turn is one of the transitions.** -/
theorem step_transition {s : System C} (coherent : Coherent s) (turn : C × Directive) :
    Transition turn.1 s (s.step turn).1 (s.step turn).2 := by
  obtain ⟨client, directive⟩ := turn
  cases directive with
  | call c =>
      cases phase : s.phase client with
      | idle =>
          simp only [System.step, phase]
          exact .call c phase
      | called | holding | absent | present | appended | applied | leaving | answered =>
          simp only [System.step, phase]
          exact .stay
  | go outcomes => exact advance_transition coherent client outcomes

/-! ## The invariant is kept -/

/-- One client moves on; the engine changes only under its mutex. -/
theorem Coherent.moved {s : System C} (coherent : Coherent s) {client : C} {node : Node}
    {owner : Option C} {phase : Phase} (ready : Node.Ready node)
    (takes : phase.inside = true ↔ owner = some client)
    (others : ∀ other, other ≠ client → (s.owner = some other ↔ owner = some other))
    (knows : phase.Knows node.ledger)
    (undisturbed : node.ledger = s.node.ledger ∨ s.owner = some client) :
    Coherent (({ node := node, owner := owner, phase := s.phase } : System C).moveTo client phase)
    where
  ready := ready
  owner other := by
    by_cases same : other = client
    · rw [same, System.moveTo_phase_self]
      exact takes
    · rw [System.moveTo_phase_of_ne _ same]
      exact (coherent.owner other).trans (others other same)
  knows other := by
    by_cases same : other = client
    · rw [same, System.moveTo_phase_self]
      exact knows
    · rw [System.moveTo_phase_of_ne _ same]
      rcases undisturbed with kept | held
      · show (s.phase other).Knows node.ledger
        rw [kept]
        exact coherent.knows other
      · apply Phase.knows_of_outside
        by_contra inside
        have := coherent.owner_of_inside (by simpa using inside)
        rw [held] at this
        exact same (Option.some.inj this).symm

theorem Transition.coherent {s next : System C} {client : C}
    {seen : Observation C} (coherent : Coherent s)
    (transition : Transition client s seen next) : Coherent next := by
  have held : (s.phase client).inside = true → s.owner = some client := coherent.owner_of_inside
  have free : (s.phase client).inside = false → s.owner ≠ some client := fun outside owner => by
    cases outside.symm.trans ((coherent.owner client).2 owner)
  cases transition with
  | stay => exact coherent
  | call c idle =>
      have outside := free (by rw [idle]; rfl)
      exact coherent.moved coherent.ready (by simp [Phase.inside, outside]) (fun _ _ => Iff.rfl)
        trivial (Or.inl rfl)
  | read c called reads =>
      have outside := free (by rw [called]; rfl)
      exact coherent.moved coherent.ready (by simp [Phase.inside, outside]) (fun _ _ => Iff.rfl)
        trivial (Or.inl rfl)
  | acquire c called mutation nobody =>
      refine coherent.moved coherent.ready (by simp [Phase.inside]) (fun other ne => ?_) mutation
        (Or.inl rfl)
      simp [nobody, Ne.symm ne]
  | look key found holding answer =>
      have owner := held (by rw [holding]; rfl)
      refine coherent.moved coherent.ready ?_ (fun _ _ => Iff.rfl) ?_ (Or.inl rfl)
      · cases found <;> simp [Phase.inside, owner]
      · cases found <;> exact answer
  | refuse c node waiting intent kept missing =>
      have owner := held waiting.inside
      exact coherent.moved kept.ready (by simp [Phase.inside, owner]) (fun _ _ => Iff.rfl) trivial
        (Or.inl kept.ledger)
  | reject c record status node waiting intent refusal invalid kept =>
      have owner := held waiting.inside
      exact coherent.moved kept.ready (by simp [Phase.inside, owner]) (fun _ _ => Iff.rfl) trivial
        (Or.inl kept.ledger)
  | fail c record status written node waiting intent unavailable ready ledger content =>
      have owner := held waiting.inside
      exact coherent.moved ready (by simp [Phase.inside, owner]) (fun _ _ => Iff.rfl) trivial
        (Or.inl ledger)
  | append c record node waiting intent ready ledger content =>
      have owner := held waiting.inside
      refine coherent.moved ready (by simp [Phase.inside, owner]) (fun _ _ => Iff.rfl) ?_
        (Or.inl ledger)
      exact ⟨record, by rw [ledger, intent], rfl⟩
  | apply c record appended intent =>
      have owner := held (by rw [appended]; rfl)
      exact coherent.moved { coherent.ready with } (by simp [Phase.inside, owner])
        (fun _ _ => Iff.rfl) trivial (Or.inr owner)
  | count c applied =>
      have owner := held (by rw [applied]; rfl)
      exact coherent.moved { coherent.ready with } (by simp [Phase.inside, owner])
        (fun _ _ => Iff.rfl) trivial (Or.inr owner)
  | release c reply leaving =>
      have owner := held (by rw [leaving]; rfl)
      refine coherent.moved coherent.ready (by simp [Phase.inside]) (fun other ne => ?_) trivial
        (Or.inl rfl)
      simp [owner, Ne.symm ne]
  | ret c reply answered =>
      have outside := free (by rw [answered]; rfl)
      exact coherent.moved coherent.ready (by simp [Phase.inside, outside]) (fun _ _ => Iff.rfl)
        trivial (Or.inl rfl)

/-- What every transition shows holds of all that a run shows. -/
theorem run_shows {Q : Observation C → Prop}
    (shows : ∀ {s next : System C} {client : C} {shown : Observation C},
      Transition client s shown next → Q shown) {s : System C} (coherent : Coherent s)
    (turns : List (C × Directive)) : ∀ shown ∈ (Machine.run System.step s turns).1, Q shown := by
  induction turns generalizing s with
  | nil => exact fun _ member => absurd member List.not_mem_nil
  | cons turn rest ih =>
      have transition := step_transition coherent turn
      intro shown member
      rw [Machine.run_cons] at member
      rcases List.mem_cons.1 member with rfl | later
      · exact shows transition
      · exact ih (transition.coherent coherent) shown later

/-! ## The holder's phase -/

section Holder

variable {s : System C} (coherent : Coherent s) {client : C}

include coherent

omit [DecidableEq C] in
theorem Coherent.ownerPhase_eq (inside : (s.phase client).inside = true) :
    s.ownerPhase = s.phase client :=
  System.ownerPhase_of_owner (coherent.owner_of_inside inside)

theorem Coherent.ownerPhase_moved (inside : (s.phase client).inside = true) (node : Node)
    (phase : Phase) : (({ s with node := node } : System C).moveTo client phase).ownerPhase = phase :=
  System.ownerPhase_moveTo_of_owner (coherent.owner_of_inside inside) phase

theorem Coherent.ownerPhase_outside (outside : (s.phase client).inside = false) (phase : Phase) :
    (s.moveTo client phase).ownerPhase = s.ownerPhase :=
  System.ownerPhase_moveTo_of_ne (fun owner => by
    cases outside.symm.trans ((coherent.owner client).2 owner)) phase

end Holder

end AsterKV.Concurrent
