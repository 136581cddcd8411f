/-
# AsterKV.Concurrent.LineClients -- many connections, one pipeline, one engine

The workers of the server share one `LocalPipeline` over one `WalBackedStorage`.  A
worker parses a line, makes the line's one storage call in the steps of
`Concurrent.Clients`, and serializes what it returned; the others take their steps in
between.  `step_visible` says how each of these steps looks to the connections: a line
takes effect where its storage call does, and a line without a call where it is parsed.
-/
import AsterKV.Concurrent.WriteAhead
import AsterKV.Pipeline.LoggedPipeline
import AsterKV.Theory.VisibleSteps

namespace AsterKV.Pipeline

open AsterKV.Core AsterKV.Command AsterKV.Execution AsterKV.Protocol AsterKV.Storage

set_option autoImplicit false

/-! ## The two halves of a line -/

/-- The engine as a caller of one method sees it: its answer. -/
structure OneReply where
  reply : Reply

instance : StorageEngine OneReply where
  set engine _ _ :=
    match engine.reply with
    | .status status => (status, engine)
    | _ => (.internalError [], engine)
  get engine _ :=
    match engine.reply with
    | .value result => result
    | _ => .failure (.internalError [])
  remove engine _ :=
    match engine.reply with
    | .status status => (status, engine)
    | _ => (.internalError [], engine)
  exists? engine _ :=
    match engine.reply with
    | .flag result => result
    | _ => .failure (.internalError [])

/-- What the pipeline makes of a line once its storage call returned. -/
def lineResponse (line : Bytes) (reply : Reply) : Bytes := (processLine (OneReply.mk reply) line).1

section Halves

variable {σ τ : Type} [StorageEngine σ] [StorageEngine τ]

theorem call_oneReply (s : σ) (c : Call) :
    (StorageEngine.call (OneReply.mk (StorageEngine.call s c).1) c).1 =
      (StorageEngine.call s c).1 := by
  cases c with
  | set | get | remove | exists? => rfl

/-- A line's response is that of its call's reply. -/
theorem processLine_response {line : Bytes} {c : Call} (calls : lineCall line = some c) (s : σ) :
    (processLine s line).1 = lineResponse line (StorageEngine.call s c).1 := by
  refine (processLine_congr (R := fun _ _ => True) line trivial fun c' calls' => ⟨?_, trivial⟩).1
  obtain rfl : c' = c := Option.some.inj (calls'.symm.trans calls)
  exact (call_oneReply s c').symm

/-- A line without a call is answered alike over all engines. -/
theorem processLine_quiet {line : Bytes} (quiet : lineCall line = none) (s : σ) (t : τ) :
    (processLine s line).1 = (processLine t line).1 :=
  (processLine_congr (R := fun _ _ => True) line trivial
    fun c calls => by cases quiet.symm.trans calls).1

/-- The engine after a line is the engine after its call. -/
theorem processLine_engine (s : σ) (line : Bytes) :
    (processLine s line).2 =
      match lineCall line with
      | some c => (StorageEngine.call s c).2
      | none => s := by
  unfold processLine lineCall
  cases parsed : parseCommandLine line with
  | error failure => rfl
  | ok request =>
      have valid : (validateCommandRequest request).isOk = true :=
        validateCommandRequest_isOk.2 (arguments_of_parseCommandLine parsed)
      simp only [dispatch, valid, Bool.not_true, Bool.false_eq_true, if_false, requestCall]
      cases request.type with
      | ping => rfl
      | set =>
          simp only [dispatchSet]
          split <;> rfl
      | get =>
          simp only [dispatchGet]
          split <;> rfl
      | del =>
          simp only [dispatchDel]
          split
          · rfl
          · split <;> rfl
      | exists? =>
          simp only [dispatchExists]
          split <;> rfl

end Halves

end AsterKV.Pipeline

namespace AsterKV.Concurrent

open AsterKV.Core AsterKV.Pipeline AsterKV.Storage AsterKV.Wal Theory Theory.Linearizability

set_option autoImplicit false

/-! ## The system -/

/-- Where a worker stands with its connection's lines. -/
inductive LinePhase where
  | idle
  | received (line : Bytes)
  /-- The line's storage call is under way. -/
  | dispatched (line : Bytes)
  | serialized (line response : Bytes)
  deriving DecidableEq

structure LineSystem (C : Type) where
  engine : System C
  phase : C → LinePhase

/-- A connection's turn: a line arrives, or its worker takes one step. -/
inductive LineDirective where
  | submit (line : Bytes)
  | go (outcomes : Outcomes)
  deriving DecidableEq

inductive LineObservation (C : Type) where
  | silent
  | submitted (client : C) (line : Bytes)
  | responded (client : C) (response : Bytes)
  | engine (observation : Observation C)
  deriving DecidableEq

variable {C : Type}

namespace LineSystem

def initial (node : Node) : LineSystem C :=
  { engine := System.initial node, phase := fun _ => .idle }

variable [DecidableEq C]

def moveTo (system : LineSystem C) (client : C) (phase : LinePhase) : LineSystem C :=
  { system with phase := Function.update system.phase client phase }

/-- One step of a worker. -/
def advance (system : LineSystem C) (client : C) (outcomes : Outcomes) :
    LineObservation C × LineSystem C :=
  match system.phase client with
  | .idle => (.silent, system)
  | .received line =>
      match lineCall line with
      | none =>
          (.silent, system.moveTo client
            (.serialized line (processLine system.engine.node line).1))
      | some c =>
          let (seen, engine) := system.engine.step (client, .call c)
          (.engine seen, { system with engine := engine }.moveTo client (.dispatched line))
  | .dispatched line =>
      let (seen, engine) := system.engine.step (client, .go outcomes)
      match seen with
      | .returned _ _ reply =>
          (.engine seen, { system with engine := engine }.moveTo client
            (.serialized line (lineResponse line reply)))
      | _ => (.engine seen, { system with engine := engine })
  | .serialized _ response => (.responded client response, system.moveTo client .idle)

/-- One turn of the schedule.  A turn that the connection cannot use changes nothing. -/
def step (system : LineSystem C) (turn : C × LineDirective) :
    LineObservation C × LineSystem C :=
  match turn.2, system.phase turn.1 with
  | .submit line, .idle => (.submitted turn.1 line, system.moveTo turn.1 (.received line))
  | .submit _, _ => (.silent, system)
  | .go outcomes, _ => system.advance turn.1 outcomes

@[simp] theorem moveTo_engine (system : LineSystem C) (client : C) (phase : LinePhase) :
    (system.moveTo client phase).engine = system.engine := rfl

@[simp] theorem moveTo_phase (system : LineSystem C) (client : C) (phase : LinePhase) :
    (system.moveTo client phase).phase = Function.update system.phase client phase := rfl

end LineSystem

/-! ## What is seen of it -/

/-- What the connection sees. -/
def LineObservation.event? : LineObservation C → Option (Event C Bytes Bytes)
  | .submitted client line => some (.call client line)
  | .responded client response => some (.ret client response)
  | .silent | .engine _ => none

/-- A step in which a valid record could not be appended. -/
def LineObservation.isFailedAppend : LineObservation C → Bool
  | .engine observation => observation.isFailedAppend
  | _ => false

def lineHistory (seen : List (LineObservation C)) : List (Event C Bytes Bytes) :=
  seen.filterMap LineObservation.event?

namespace LinePhase

/-- The line in progress, with its response once it took effect; `inner` is where the
client stands in the engine. -/
def view (inner : Phase) : LinePhase → Option (Bytes × Option Bytes)
  | .idle => none
  | .received line => some (line, none)
  | .dispatched line =>
      some (line, (inner.view.bind Prod.snd).map (lineResponse line))
  | .serialized line response => some (line, some response)

/-- A worker is in the engine exactly while its line's call is under way. -/
def Fits (inner : Phase) : LinePhase → Prop
  | .dispatched line => ∃ c reply, lineCall line = some c ∧ inner.view = some (c, reply)
  | .idle | .received _ | .serialized _ _ => inner = .idle

end LinePhase

def LineSystem.view (s : LineSystem C) (client : C) : Option (Bytes × Option Bytes) :=
  (s.phase client).view (s.engine.phase client)

structure LineCoherent (s : LineSystem C) : Prop where
  engine : Coherent s.engine
  fits : ∀ client, (s.phase client).Fits (s.engine.phase client)

/-- What a line may be answered on one map with its counter: its call, if it makes one,
as the engine may answer it. -/
inductive LineAdmits (mayFail : Prop) (ledger : Ledger) (line : Bytes) :
    Bytes → Ledger → Prop where
  | quiet (none : lineCall line = none) :
      LineAdmits mayFail ledger line (processLine ledger.storage line).1 ledger
  | call (c : Call) (calls : lineCall line = some c) (reply : Reply) (next : Ledger)
      (admits : Ledger.Admits mayFail ledger c reply next) :
      LineAdmits mayFail ledger line (lineResponse line reply) next

theorem lineCoherent_initial {node : Node} (ready : Node.Ready node) :
    LineCoherent (LineSystem.initial node : LineSystem C) where
  engine := coherent_initial ready
  fits _ := rfl

/-! ## Every step is visible -/

/-- The observer of the connections. -/
def lineSeen (s : LineSystem C) (seen : List (LineObservation C)) : Seen C Bytes Bytes Ledger :=
  seenOf LineObservation.event? LineSystem.view (fun s => s.engine.ledger) s seen

section Steps

variable {mayFail : Prop}

theorem history_snoc_of_none {seen : List (LineObservation C)} {shown : LineObservation C}
    (event : shown.event? = none) :
    (seen ++ [shown]).filterMap LineObservation.event? =
      seen.filterMap LineObservation.event? := by
  rw [filterMap_snoc, event]
  exact List.append_nil _

variable [DecidableEq C]

/-- One client moves in pipeline and engine. -/
structure Moved (client : C) (s next : LineSystem C) : Prop where
  lines : ∀ other, other ≠ client → next.phase other = s.phase other
  inner : ∀ other, other ≠ client → next.engine.phase other = s.engine.phase other

theorem Moved.view {client : C} {s next : LineSystem C} (moved : Moved client s next)
    {view : Option (Bytes × Option Bytes)} (now : next.view client = view) :
    next.view = Function.update s.view client view := by
  funext other
  by_cases same : other = client
  · rw [same, Function.update_self, now]
  · rw [Function.update_of_ne same, LineSystem.view, LineSystem.view, moved.lines other same,
      moved.inner other same]

theorem Moved.coherent {client : C} {s next : LineSystem C} (moved : Moved client s next)
    (coherent : LineCoherent s) (engine : Coherent next.engine)
    (now : (next.phase client).Fits (next.engine.phase client)) : LineCoherent next where
  engine := engine
  fits other := by
    by_cases same : other = client
    · rw [same]
      exact now
    · rw [moved.lines other same, moved.inner other same]
      exact coherent.fits other

/-- A step of the pipeline outside the engine. -/
theorem moved_line (s : LineSystem C) (client : C) (phase : LinePhase) :
    Moved client s (s.moveTo client phase) where
  lines _ ne := Function.update_of_ne ne _ _
  inner _ _ := rfl

/-- A step inside the engine, with the worker where the step leaves it. -/
theorem moved_engine {s : LineSystem C} {client : C} {shown : Observation C} {next : System C}
    (transition : Transition client s.engine shown next) (phase : LinePhase) :
    Moved client s ({ s with engine := next }.moveTo client phase) where
  lines _ ne := Function.update_of_ne ne _ _
  inner := transition.others

/-- Where a worker stands after a step of its line's storage call. -/
def LinePhase.after (line : Bytes) : Observation C → LinePhase
  | .returned _ _ reply => .serialized line (lineResponse line reply)
  | .silent | .called _ _ | .append _ _ _ _ _ => .dispatched line

omit [DecidableEq C] in
theorem LinePhase.after_of_none {shown : Observation C} (event : shown.event? = none)
    (line : Bytes) : LinePhase.after line shown = .dispatched line := by
  cases shown with
  | returned => cases event
  | silent | called | append => rfl

theorem advance_dispatched {s : LineSystem C} {client : C} {line : Bytes}
    (phase : s.phase client = .dispatched line) {outcomes : Outcomes} {shown : Observation C}
    {next : System C} (result : s.engine.step (client, .go outcomes) = (shown, next)) :
    s.advance client outcomes = (.engine shown,
      { s with engine := next }.moveTo client (LinePhase.after line shown)) := by
  have stays : ({ s with engine := next } : LineSystem C).moveTo client (.dispatched line) =
      { s with engine := next } := by
    rw [LineSystem.moveTo, ← phase, Function.update_eq_self]
  cases shown with
  | returned who c reply => simp only [LineSystem.advance, phase, result, LinePhase.after]
  | silent | called | append =>
      simp only [LineSystem.advance, phase, result, LinePhase.after, stays]

/-- A worker's step leaves the engine alone or is one of its steps. -/
theorem step_engine (s : LineSystem C) (turn : C × LineDirective) :
    (s.step turn).2.engine = s.engine ∨
      ∃ directive, (s.step turn).1 = .engine (s.engine.step (turn.1, directive)).1 ∧
        (s.step turn).2.engine = (s.engine.step (turn.1, directive)).2 := by
  obtain ⟨client, directive⟩ := turn
  cases directive with
  | submit line =>
      cases phase : s.phase client with
      | idle | received | dispatched | serialized =>
          exact Or.inl (by simp only [LineSystem.step, phase, LineSystem.moveTo_engine])
  | go outcomes =>
      cases phase : s.phase client with
      | idle | serialized =>
          refine Or.inl ?_
          simp only [LineSystem.step, LineSystem.advance, phase, LineSystem.moveTo_engine]
      | received line =>
          cases calls : lineCall line with
          | none =>
              refine Or.inl ?_
              simp only [LineSystem.step, LineSystem.advance, phase, calls,
                LineSystem.moveTo_engine]
          | some c =>
              simp only [LineSystem.step, LineSystem.advance, phase, calls]
              exact Or.inr ⟨.call c, rfl, rfl⟩
      | dispatched line =>
          have eq : s.step (client, .go outcomes) = _ := advance_dispatched phase rfl
          rw [eq]
          exact Or.inr ⟨.go outcomes, rfl, rfl⟩

/-- **A step of a line's storage call.** -/
theorem dispatched_visible {s : LineSystem C} (coherent : LineCoherent s) {client : C}
    {line : Bytes} (phase : s.phase client = .dispatched line) (outcomes : Outcomes)
    (seen : List (LineObservation C))
    (blame : (s.advance client outcomes).1.isFailedAppend = true → mayFail) :
    LineCoherent (s.advance client outcomes).2 ∧
      Visible (LineAdmits mayFail) (lineSeen s seen)
        (lineSeen (s.advance client outcomes).2 (seen ++ [(s.advance client outcomes).1])) := by
  obtain ⟨⟨shown, next⟩, result⟩ :
      ∃ result, s.engine.step (client, .go outcomes) = result := ⟨_, rfl⟩
  have transition := step_transition coherent.engine (client, .go outcomes)
  have engine := transition.coherent coherent.engine
  have fits := coherent.fits client
  rw [result] at transition engine
  rw [phase] at fits
  rw [advance_dispatched phase result] at blame ⊢
  obtain ⟨c, reply, calls, inner⟩ := fits
  have moved := moved_engine transition (LinePhase.after line shown)
  have history : (seen ++ [LineObservation.engine shown]).filterMap LineObservation.event? =
      seen.filterMap LineObservation.event? := history_snoc_of_none rfl
  have before : s.view client = some (line, reply.map (lineResponse line)) := by
    rw [LineSystem.view, phase, LinePhase.view, inner]
    rfl
  have lines : ({ s with engine := next }.moveTo client (LinePhase.after line shown)).phase client =
      LinePhase.after line shown := Function.update_self ..
  cases transition.effect coherent.engine blame with
  | nothing event view ledger inFlight content =>
      rw [LinePhase.after_of_none event] at moved lines ⊢
      refine ⟨moved.coherent coherent engine ?_, .nothing history ?_ ledger⟩
      · rw [lines]
        exact ⟨c, reply, calls, view.trans inner⟩
      · refine (moved.view ?_).trans (Function.update_eq_self client s.view)
        rw [before, LineSystem.view, lines, LinePhase.view]
        show some (line, ((next.phase client).view.bind Prod.snd).map _) = _
        rw [view, inner]
        rfl
  | call c is idle view ledger inFlight content =>
      rw [idle] at inner
      cases inner
  | point asked answer event record pending done admits inFlight content =>
      rw [LinePhase.after_of_none event] at moved lines ⊢
      obtain ⟨rfl, rfl⟩ : c = asked ∧ reply = none := by
        rw [inner] at pending
        exact Prod.mk.inj (Option.some.inj pending)
      refine ⟨moved.coherent coherent engine ?_,
        .point client line (lineResponse line answer) history before (moved.view ?_)
          (.call c calls answer next.ledger admits)⟩
      · rw [lines]
        exact ⟨c, some answer, calls, done⟩
      · rw [LineSystem.view, lines, LinePhase.view]
        show some (line, ((next.phase client).view.bind Prod.snd).map _) = _
        rw [done]
        rfl
  | ret asked answer is done idle ledger inFlight content =>
      subst is
      refine ⟨moved.coherent coherent engine (by rw [lines]; exact idle),
        .nothing history ?_ ledger⟩
      refine (moved.view ?_).trans (Function.update_eq_self client s.view)
      rw [inner] at done
      obtain ⟨rfl, rfl⟩ := Prod.mk.inj (Option.some.inj done)
      rw [before, LineSystem.view, lines]
      rfl

/-- **Every turn is a call, a point, a return or nothing to the connections.** -/
theorem step_visible {s : LineSystem C} (coherent : LineCoherent s) (turn : C × LineDirective)
    (seen : List (LineObservation C)) (blame : (s.step turn).1.isFailedAppend = true → mayFail) :
    LineCoherent (s.step turn).2 ∧
      Visible (LineAdmits mayFail) (lineSeen s seen)
        (lineSeen (s.step turn).2 (seen ++ [(s.step turn).1])) := by
  obtain ⟨client, directive⟩ := turn
  have fits := coherent.fits client
  have stays : LineCoherent s ∧
      Visible (LineAdmits mayFail) (lineSeen s seen) (lineSeen s (seen ++ [.silent])) :=
    ⟨coherent, .nothing (history_snoc_of_none rfl) rfl rfl⟩
  have history : ∀ shown : LineObservation C, (seen ++ [shown]).filterMap LineObservation.event? =
      seen.filterMap LineObservation.event? ++ shown.event?.toList :=
    fun shown => filterMap_snoc _ _ _
  -- the view of a client outside the engine is its worker's phase alone
  have outside : ∀ phase : LinePhase, s.engine.phase client = .idle →
      (s.moveTo client phase).view = Function.update s.view client (phase.view .idle) := by
    intro phase idle
    refine (moved_line s client phase).view ?_
    rw [LineSystem.view, LineSystem.moveTo_engine, LineSystem.moveTo_phase, Function.update_self,
      idle]
  have kept : ∀ phase : LinePhase, phase.Fits (s.engine.phase client) →
      LineCoherent (s.moveTo client phase) := by
    intro phase now
    refine (moved_line s client phase).coherent coherent coherent.engine ?_
    rwa [LineSystem.moveTo_phase, Function.update_self]
  cases phase : s.phase client with
  | idle =>
      rw [phase] at fits
      have idle : s.engine.phase client = .idle := fits
      cases directive with
      | submit line =>
          simp only [LineSystem.step, phase]
          exact ⟨kept _ idle, .call client line (history _) (outside _ idle) rfl⟩
      | go outcomes =>
          simp only [LineSystem.step, LineSystem.advance, phase]
          exact stays
  | received line =>
      rw [phase] at fits
      have idle : s.engine.phase client = .idle := fits
      have pending : s.view client = some (line, none) := by
        rw [LineSystem.view, phase]
        rfl
      cases directive with
      | submit line =>
          simp only [LineSystem.step, phase]
          exact stays
      | go outcomes =>
          cases calls : lineCall line with
          | none =>
              simp only [LineSystem.step, LineSystem.advance, phase, calls]
              refine ⟨kept _ idle, .point client line _ (history_snoc_of_none rfl) pending
                (outside _ idle) ?_⟩
              have quiet := processLine_quiet calls s.engine.node s.engine.ledger.storage
              rw [quiet]
              exact .quiet calls
          | some c =>
              have called : s.engine.step (client, .call c) =
                  (.called client c, s.engine.moveTo client (.called c)) := by
                simp only [System.step, idle]
              have transition := step_transition coherent.engine (client, .call c)
              rw [called] at transition
              have moved := moved_engine transition (.dispatched line)
              have lines : ({ s with engine := s.engine.moveTo client (.called c) }.moveTo client
                  (.dispatched line)).phase client = .dispatched line := Function.update_self ..
              have inner : (s.engine.moveTo client (.called c)).phase client = .called c :=
                System.moveTo_phase_self ..
              simp only [LineSystem.step, LineSystem.advance, phase, calls, called]
              refine ⟨moved.coherent coherent (transition.coherent coherent.engine) ?_,
                .nothing (history_snoc_of_none rfl) ?_ ?_⟩
              · rw [lines]
                exact ⟨c, none, calls, congrArg Phase.view inner⟩
              · refine (moved.view ?_).trans (Function.update_eq_self client s.view)
                rw [pending, LineSystem.view, lines]
                show (LinePhase.dispatched line).view ((s.engine.moveTo client (.called c)).phase
                  client) = _
                rw [inner]
                rfl
              · have same := coherent.engine.ownerPhase_outside (by rw [idle]; rfl) (.called c)
                exact ledger_eq_of_uncounted (congrArg _ same) rfl
  | dispatched line =>
      cases directive with
      | submit line =>
          simp only [LineSystem.step, phase]
          exact stays
      | go outcomes => exact dispatched_visible coherent phase outcomes seen blame
  | serialized line response =>
      rw [phase] at fits
      have idle : s.engine.phase client = .idle := fits
      have done : s.view client = some (line, some response) := by
        rw [LineSystem.view, phase]
        rfl
      cases directive with
      | submit line =>
          simp only [LineSystem.step, phase]
          exact stays
      | go outcomes =>
          simp only [LineSystem.step, LineSystem.advance, phase]
          exact ⟨kept _ idle, .ret client line response (history _) done (outside _ idle) rfl⟩

end Steps

end AsterKV.Concurrent
