/-
# AsterKV.Concurrent.LineProgress -- every line is answered

A worker waits for nothing but the mutex of the engine, and the holder of the mutex never
waits (`advance_toGo`): so the workers cannot block each other for good.  From whatever
state an interleaving has reached, a bounded number of rounds in which every worker gets a
turn answers all lines and gives the mutex back (`all_lines_answered`), also when appends fail
on the way.
-/
import Mathlib.Algebra.Order.BigOperators.Group.Finset
import AsterKV.Concurrent.LineHistories
import AsterKV.Theory.Progress

namespace AsterKV.Concurrent

open AsterKV.Core AsterKV.Pipeline AsterKV.Storage AsterKV.Wal Theory Theory.Linearizability

set_option autoImplicit false

variable {C : Type}

/-! ## What a thread has still to do -/

/-- The steps left to a call, at most. -/
def Phase.toGo : Phase → Nat
  | .idle => 0
  | .answered _ _ => 1
  | .leaving _ _ => 2
  | .applied _ | .absent _ => 3
  | .appended _ _ => 4
  | .present _ => 5
  | .holding _ => 6
  | .called _ => 7

/-- The steps left to a line, at most; `inner` is where its worker stands in the engine. -/
def LinePhase.toGo (inner : Phase) : LinePhase → Nat
  | .idle => 0
  | .serialized _ _ => 1
  | .dispatched _ => 1 + inner.toGo
  | .received _ => 9

def LineSystem.toGo (s : LineSystem C) (client : C) : Nat :=
  (s.phase client).toGo (s.engine.phase client)

theorem Phase.toGo_le (phase : Phase) : phase.toGo ≤ 7 := by
  cases phase <;> simp [Phase.toGo]

theorem LineSystem.toGo_of_idle {s : LineSystem C} {client : C} (idle : s.phase client = .idle) :
    s.toGo client = 0 := by
  rw [toGo, idle]
  rfl

theorem LineSystem.toGo_le (s : LineSystem C) (client : C) : s.toGo client ≤ 9 := by
  have most := (s.engine.phase client).toGo_le
  unfold toGo LinePhase.toGo
  split <;> omega

/-- A mutation that stands before the mutex while somebody holds it. -/
structure Blocked (s : System C) (client : C) : Prop where
  waits : ∃ c, s.phase client = .called c ∧ c.isMutation = true
  held : s.owner ≠ none

variable [DecidableEq C]

/-- An append is followed by the map or by the way out. -/
theorem append_toGo (s : System C) (client : C) (c : Call) (record : WalRecord)
    (outcomes : Outcomes) : ((s.append client c record outcomes).2.phase client).toGo ≤ 4 := by
  simp only [System.append, System.moveTo_phase_self]
  split <;> simp [Phase.toGo]

/-- **A thread with a call does some of it, or waits for the mutex.** -/
theorem advance_toGo {s : System C} (coherent : Coherent s) {client : C}
    (busy : s.phase client ≠ .idle) (outcomes : Outcomes) :
    (s.advance client outcomes = (.silent, s) ∧ Blocked s client) ∨
      ((s.advance client outcomes).2.phase client).toGo < (s.phase client).toGo := by
  have knows := coherent.knows client
  unfold System.advance
  cases phase : s.phase client with
  | idle => exact absurd phase busy
  | called c =>
      cases mutation : c.isMutation with
      | true =>
          cases owner : s.owner with
          | none => exact Or.inr (by simp [mutation, Phase.toGo])
          | some holder =>
              refine Or.inl ⟨by simp only [mutation, if_true], ⟨c, phase, mutation⟩, ?_⟩
              rw [owner]
              exact Option.some_ne_none holder
      | false => exact Or.inr (by simp [mutation, Phase.toGo])
  | holding c =>
      rw [phase] at knows
      cases c with
      | set key value =>
          have left := append_toGo s client (.set key value)
            (makeSetRecord s.node.engine.nextSequenceNumber key value) outcomes
          exact Or.inr (Nat.lt_of_le_of_lt left (show 4 < 6 by decide))
      | remove key =>
          right
          dsimp only
          split <;> simp [Phase.toGo]
      | get key | exists? key => cases knows
  | absent key => exact Or.inr (by simp [Phase.toGo])
  | present key =>
      have left := append_toGo s client (.remove key)
        (makeDelRecord s.node.engine.nextSequenceNumber key) outcomes
      exact Or.inr (Nat.lt_of_le_of_lt left (show 4 < 5 by decide))
  | appended c record =>
      right
      dsimp only
      rw [System.moveTo_phase_self]
      split <;> simp [Phase.toGo]
  | applied c => exact Or.inr (by simp [Phase.toGo])
  | leaving c reply => exact Or.inr (by simp [Phase.toGo])
  | answered c reply => exact Or.inr (by simp [Phase.toGo])

/-! ## Lines -/

/-- A worker's step is a wait, or brings its line nearer to its response and moves no other
worker. -/
theorem LineSystem.advance_toGo {s : LineSystem C} (coherent : LineCoherent s) (client : C)
    (outcomes : Outcomes) :
    ((s.advance client outcomes).2 = s ∧ (s.phase client = .idle ∨ Blocked s.engine client)) ∨
      (Moved client s (s.advance client outcomes).2 ∧
        (s.advance client outcomes).2.toGo client < s.toGo client) := by
  have fits := coherent.fits client
  cases phase : s.phase client with
  | idle =>
      refine Or.inl ⟨?_, Or.inl rfl⟩
      simp only [LineSystem.advance, phase]
  | received line =>
      right
      rw [phase] at fits
      have idle : s.engine.phase client = .idle := fits
      cases calls : lineCall line with
      | none =>
          simp only [LineSystem.advance, phase, calls]
          refine ⟨moved_line s client _, ?_⟩
          simp [LineSystem.toGo, phase, LinePhase.toGo]
      | some c =>
          have transition := step_transition coherent.engine (client, .call c)
          simp only [LineSystem.advance, phase, calls]
          refine ⟨moved_engine transition _, ?_⟩
          have most := ((s.engine.step (client, .call c)).2.phase client).toGo_le
          simp only [LineSystem.toGo, phase, LinePhase.toGo, LineSystem.moveTo_phase,
            Function.update_self, LineSystem.moveTo_engine]
          omega
  | dispatched line =>
      rw [phase] at fits
      obtain ⟨c, reply, -, inner⟩ := fits
      have busy : s.engine.phase client ≠ .idle := by
        intro idle
        rw [idle] at inner
        cases inner
      obtain ⟨⟨shown, next⟩, result⟩ :
          ∃ result, s.engine.advance client outcomes = result := ⟨_, rfl⟩
      have transition := advance_transition coherent.engine client outcomes
      have works := Concurrent.advance_toGo coherent.engine busy outcomes
      rw [result] at transition works
      rw [advance_dispatched phase result]
      rcases works with ⟨waits, blocked⟩ | less
      · obtain ⟨rfl, rfl⟩ := Prod.mk.inj waits
        refine Or.inl ⟨?_, Or.inr blocked⟩
        rw [LineSystem.moveTo, LinePhase.after, ← phase, Function.update_eq_self]
      · refine Or.inr ⟨moved_engine transition _, ?_⟩
        have less : (next.phase client).toGo < (s.engine.phase client).toGo := less
        cases shown with
        | silent | called | append | returned =>
            simp only [LineSystem.toGo, phase, LinePhase.toGo, LinePhase.after,
              LineSystem.moveTo_phase, Function.update_self, LineSystem.moveTo_engine]
            omega
  | serialized line response =>
      right
      simp only [LineSystem.advance, phase]
      refine ⟨moved_line s client _, ?_⟩
      simp [LineSystem.toGo, phase, LinePhase.toGo]

/-! ## Rounds -/

/-- A turn in which a worker goes on. -/
def goTurn (turn : C × Outcomes) : C × LineDirective := (turn.1, .go turn.2)

def LineSystem.go (s : LineSystem C) (turn : C × Outcomes) : LineObservation C × LineSystem C :=
  s.step (goTurn turn)

def LineSystem.work (clients : Finset C) (s : LineSystem C) : Nat :=
  ∑ client ∈ clients, s.toGo client

/-- Only these connections have a line. -/
structure OnlyFrom (clients : Finset C) (s : LineSystem C) : Prop where
  coherent : LineCoherent s
  others : ∀ client, client ∉ clients → s.phase client = .idle

theorem lineCoherent_step {s : LineSystem C} (coherent : LineCoherent s)
    (turn : C × LineDirective) : LineCoherent (s.step turn).2 :=
  (@step_visible C True _ s coherent turn [] fun _ => trivial).1

theorem OnlyFrom.go {clients : Finset C} {s : LineSystem C} (only : OnlyFrom clients s)
    (turn : C × Outcomes) : OnlyFrom clients (s.go turn).2 where
  coherent := lineCoherent_step only.coherent (goTurn turn)
  others client outside := by
    rcases LineSystem.advance_toGo only.coherent turn.1 turn.2 with ⟨waits, -⟩ | ⟨moved, less⟩
    · have waits : (s.go turn).2 = s := waits
      rw [waits]
      exact only.others client outside
    · by_cases same : client = turn.1
      · rw [← same, LineSystem.toGo_of_idle (only.others client outside)] at less
        exact absurd less (Nat.not_lt_zero _)
      · exact (moved.lines client same).trans (only.others client outside)

/-- A turn of a worker is a wait or does some of the work. -/
theorem works_lines (clients : Finset C) :
    Machine.Works LineSystem.go (OnlyFrom clients) (LineSystem.work clients) where
  kept s turn only := only.go turn
  works s turn only := by
    rcases LineSystem.advance_toGo only.coherent turn.1 turn.2 with ⟨waits, -⟩ | ⟨moved, less⟩
    · exact Or.inl waits
    · have member : turn.1 ∈ clients := by
        by_contra outside
        rw [LineSystem.toGo_of_idle (only.others _ outside)] at less
        exact absurd less (Nat.not_lt_zero _)
      refine Or.inr (Finset.sum_lt_sum (fun client _ => ?_) ⟨turn.1, member, less⟩)
      by_cases same : client = turn.1
      · rw [same]
        exact Nat.le_of_lt less
      · have equal : (s.go turn).2.toGo client = s.toGo client := by
          unfold LineSystem.toGo
          exact congrArg₂ _ (moved.inner client same) (moved.lines client same)
        exact Nat.le_of_eq equal

/-- **If no turn of a round changes anything, no line is left**: a worker that waits for the
mutex has a holder to wait for, and the holder does not wait. -/
theorem idle_of_round {clients : Finset C} {s : LineSystem C} (only : OnlyFrom clients s)
    {round : List (C × Outcomes)}
    (fair : ∀ client ∈ clients, ∃ outcomes, (client, outcomes) ∈ round)
    (idle : Machine.Idle LineSystem.go s round) (client : C) : s.phase client = .idle := by
  have stands : ∀ client, client ∈ clients →
      s.phase client = .idle ∨ Blocked s.engine client := by
    intro client member
    obtain ⟨outcomes, turn⟩ := fair client member
    have same : (s.advance client outcomes).2 = s := idle _ turn
    rcases LineSystem.advance_toGo only.coherent client outcomes with ⟨-, waits⟩ | ⟨-, less⟩
    · exact waits
    · rw [same] at less
      exact absurd less (Nat.lt_irrefl _)
  by_cases member : client ∈ clients
  · rcases stands client member with here | blocked
    · exact here
    · obtain ⟨holder, owner⟩ := Option.ne_none_iff_exists'.1 blocked.held
      have inside := (only.coherent.engine.owner holder).2 owner
      have outside : s.phase holder = .idle → False := by
        intro none
        have fits := only.coherent.fits holder
        rw [none] at fits
        have idle : s.engine.phase holder = .idle := fits
        rw [idle] at inside
        cases inside
      have holds : holder ∈ clients := by
        by_contra absent
        exact outside (only.others holder absent)
      rcases stands holder holds with none | ⟨⟨c, called, -⟩, -⟩
      · exact (outside none).elim
      · rw [called] at inside
        cases inside
  · exact only.others client member

theorem rests_of_idle {s : LineSystem C} (done : ∀ client, s.phase client = .idle)
    (round : List (C × Outcomes)) : Machine.Idle LineSystem.go s round := by
  intro turn _
  simp only [LineSystem.go, goTurn, LineSystem.step, LineSystem.advance, done turn.1]

/-- A turn moves one worker at most. -/
theorem step_others {s : LineSystem C} (coherent : LineCoherent s) (turn : C × LineDirective)
    {other : C} (ne : other ≠ turn.1) : (s.step turn).2.phase other = s.phase other := by
  obtain ⟨client, directive⟩ := turn
  cases directive with
  | submit line =>
      cases phase : s.phase client with
      | idle =>
          simp only [LineSystem.step, phase]
          exact (moved_line s client _).lines other ne
      | received | dispatched | serialized => simp only [LineSystem.step, phase]
  | go outcomes =>
      rcases LineSystem.advance_toGo coherent client outcomes with ⟨waits, -⟩ | ⟨moved, -⟩
      · exact congrArg (LineSystem.phase · other) waits
      · exact moved.lines other ne

/-- Only those whose turns a schedule has can have a line. -/
theorem onlyFrom_after {clients : Finset C} {s : LineSystem C} (only : OnlyFrom clients s)
    {schedule : List (C × LineDirective)} (known : ∀ turn ∈ schedule, turn.1 ∈ clients) :
    OnlyFrom clients (Machine.after LineSystem.step s schedule) := by
  induction schedule generalizing s with
  | nil => exact only
  | cons turn rest ih =>
      rw [Machine.after_cons]
      refine ih ⟨lineCoherent_step only.coherent turn, fun client outside => ?_⟩
        fun later member => known later (List.mem_cons_of_mem _ member)
      have ne : client ≠ turn.1 := by
        rintro rfl
        exact outside (known turn List.mem_cons_self)
      rw [step_others only.coherent turn ne]
      exact only.others client outside

/-! ## Lines and responses -/

/-- The lines a connection sent. -/
def linesOf (client : C) (history : List (Event C Bytes Bytes)) : List Bytes :=
  history.filterMap fun
    | .call who line => if who = client then some line else none
    | .ret _ _ => none

/-- The responses a connection got. -/
def responsesTo (client : C) (history : List (Event C Bytes Bytes)) : List Bytes :=
  history.filterMap fun
    | .call _ _ => none
    | .ret who response => if who = client then some response else none

/-- The lines of a connection that are under way. -/
def LineSystem.underWay (s : LineSystem C) (client : C) : Nat :=
  if s.phase client = .idle then 0 else 1

/-- Every line is answered or under way. -/
def Paired (s : LineSystem C) (seen : List (LineObservation C)) : Prop :=
  ∀ client, (linesOf client (lineHistory seen)).length =
    (responsesTo client (lineHistory seen)).length + s.underWay client

omit [DecidableEq C] in
theorem lineHistory_snoc (seen : List (LineObservation C)) (shown : LineObservation C) :
    lineHistory (seen ++ [shown]) = lineHistory seen ++ shown.event?.toList :=
  filterMap_snoc _ _ _

/-- A worker goes on and its connection sees nothing. -/
theorem Paired.unseen {s next : LineSystem C} {seen : List (LineObservation C)}
    (paired : Paired s seen) {shown : LineObservation C} (event : shown.event? = none)
    (same : ∀ client, next.phase client = .idle ↔ s.phase client = .idle) :
    Paired next (seen ++ [shown]) := by
  intro client
  have before := paired client
  rw [lineHistory_snoc, event, Option.toList_none, List.append_nil]
  unfold LineSystem.underWay at before ⊢
  simp only [same client]
  exact before

/-- A worker goes on from one busy phase to another. -/
theorem busy_iff {s : LineSystem C} {client : C} {phase : LinePhase} (now : phase ≠ .idle)
    (busy : s.phase client ≠ .idle) (engine : System C) (other : C) :
    ({ s with engine := engine }.moveTo client phase).phase other = .idle ↔
      s.phase other = .idle := by
  rw [LineSystem.moveTo_phase]
  by_cases same : other = client
  · rw [same, Function.update_self]
    exact ⟨fun is => absurd is now, fun is => absurd is busy⟩
  · rw [Function.update_of_ne same]

/-- **A turn keeps lines and responses paired.** -/
theorem Paired.step {s : LineSystem C} {seen : List (LineObservation C)} (paired : Paired s seen)
    (turn : C × LineDirective) : Paired (s.step turn).2 (seen ++ [(s.step turn).1]) := by
  obtain ⟨client, directive⟩ := turn
  have stays : Paired s (seen ++ [.silent]) := paired.unseen rfl fun _ => Iff.rfl
  cases directive with
  | submit line =>
      cases phase : s.phase client with
      | idle =>
          simp only [LineSystem.step, phase]
          intro other
          have before := paired other
          rw [lineHistory_snoc]
          unfold LineSystem.underWay at before ⊢
          rw [LineSystem.moveTo_phase]
          by_cases same : other = client
          · subst same
            rw [if_pos phase] at before
            simp [LineObservation.event?, linesOf, responsesTo] at before ⊢
            exact before
          · rw [Function.update_of_ne same]
            simpa [LineObservation.event?, linesOf, responsesTo, Ne.symm same] using before
      | received | dispatched | serialized =>
          simp only [LineSystem.step, phase]
          exact stays
  | go outcomes =>
      cases phase : s.phase client with
      | idle =>
          simp only [LineSystem.step, LineSystem.advance, phase]
          exact stays
      | received line =>
          have busy : s.phase client ≠ .idle := by simp [phase]
          cases calls : lineCall line with
          | none =>
              simp only [LineSystem.step, LineSystem.advance, phase, calls]
              exact paired.unseen rfl (busy_iff (by simp) busy s.engine)
          | some c =>
              simp only [LineSystem.step, LineSystem.advance, phase, calls]
              exact paired.unseen rfl (busy_iff (by simp) busy _)
      | dispatched line =>
          have busy : s.phase client ≠ .idle := by simp [phase]
          show Paired (s.advance client outcomes).2 (seen ++ [(s.advance client outcomes).1])
          rw [advance_dispatched phase rfl]
          refine paired.unseen rfl (busy_iff ?_ busy _)
          unfold LinePhase.after
          split <;> simp
      | serialized line response =>
          simp only [LineSystem.step, LineSystem.advance, phase]
          intro other
          have before := paired other
          rw [lineHistory_snoc]
          unfold LineSystem.underWay at before ⊢
          rw [LineSystem.moveTo_phase]
          by_cases same : other = client
          · subst same
            rw [if_neg (by simp [phase])] at before
            simp [LineObservation.event?, linesOf, responsesTo] at before ⊢
            exact before
          · rw [Function.update_of_ne same]
            simpa [LineObservation.event?, linesOf, responsesTo, Ne.symm same] using before

theorem paired_run (node : Node) (turns : List (C × LineDirective)) :
    Paired (Machine.after LineSystem.step (LineSystem.initial node) turns)
      (Machine.run LineSystem.step (LineSystem.initial node) turns).1 := by
  have all := @Machine.run_accumulates (LineSystem C) (C × LineDirective) (LineObservation C)
    LineSystem.step turns Paired (fun s seen turn _ paired => paired.step turn)
    (LineSystem.initial node) [] (fun client => rfl)
  rwa [List.nil_append] at all

/-! ## No deadlock -/

/-- **Every line is answered.**  Any interleaving of any number of connections, with any
answers of the kernel; then no new lines, and more rounds in which every connection gets a
turn than nine for each connection.  Then no line is under way, every connection has got a
response to each of its lines, and nobody holds the mutex. -/
theorem all_lines_answered {node : Node} (ready : Node.Ready node) {clients : Finset C}
    {schedule : List (C × LineDirective)} (known : ∀ turn ∈ schedule, turn.1 ∈ clients)
    {rounds : List (List (C × Outcomes))}
    (fair : ∀ round ∈ rounds, ∀ client ∈ clients, ∃ outcomes, (client, outcomes) ∈ round)
    (enough : 9 * clients.card < rounds.length) :
    let turns := schedule ++ rounds.flatten.map goTurn
    let seen := (Machine.run LineSystem.step (LineSystem.initial node) turns).1
    let last := Machine.after LineSystem.step (LineSystem.initial node) turns
    last.engine.owner = none ∧ ∀ client, last.phase client = .idle ∧
      (linesOf client (lineHistory seen)).length =
        (responsesTo client (lineHistory seen)).length := by
  intro turns seen last
  have only := onlyFrom_after ⟨lineCoherent_initial ready, fun _ _ => rfl⟩ known
  have bounded : ∀ s : LineSystem C, s.work clients ≤ 9 * clients.card := by
    intro s
    rw [Nat.mul_comm]
    exact Finset.sum_le_card_nsmul clients _ 9 fun client _ => s.toGo_le client
  have done := @Machine.Works.done_of_blocks (LineSystem C) (C × Outcomes) (LineObservation C) _ _ _
    (works_lines clients) (fun s => ∀ client, s.phase client = .idle) _ only rounds
    (fun round member s only idle client => idle_of_round only (fair round member) idle client)
    (fun round _ s _ done => rests_of_idle done round)
    (Nat.lt_of_le_of_lt (bounded _) enough)
  have same : Machine.after LineSystem.go
      (Machine.after LineSystem.step (LineSystem.initial node) schedule) rounds.flatten = last := by
    rw [show last = _ from Machine.after_append LineSystem.step _ schedule _]
    exact congrArg Prod.snd (Machine.run_map LineSystem.step goTurn _ _)
  rw [same] at done
  have coherent : LineCoherent last :=
    @Machine.after_invariant (LineSystem C) (C × LineDirective) (LineObservation C) LineSystem.step
      LineCoherent (fun s turn known => lineCoherent_step known turn) _ (lineCoherent_initial ready)
      turns
  refine ⟨?_, fun client => ⟨done client, ?_⟩⟩
  · cases owner : last.engine.owner with
    | none => rfl
    | some holder =>
        have inside := (coherent.engine.owner holder).2 owner
        have fits := coherent.fits holder
        rw [done holder] at fits
        have idle : last.engine.phase holder = .idle := fits
        rw [idle] at inside
        cases inside
  · have paired := paired_run node turns client
    rwa [LineSystem.underWay, if_pos (done client)] at paired

/-- One connection waits for the mutex of another. -/
def waitingDel : List (Bool × LineDirective) :=
  [(false, .submit (bytes "SET k v")), (true, .submit (bytes "del k")), (false, .go {}),
    (false, .go {}), (true, .go {}), (true, .go {})]

/-- The disk is full when the set is appended. -/
def fullDisk : List (Bool × Outcomes) :=
  [(true, {}), (false, { writes := [.failed (.other (bytes "No space left on device"))] })]

theorem all_lines_answered_waiting :
    let start := (Node.launch (bytes "wal") {} (.holding none)).2
    let turns := waitingDel ++ (List.replicate 19 fullDisk).flatten.map goTurn
    let seen := (Machine.run LineSystem.step (LineSystem.initial start) turns).1
    (linesOf true (lineHistory seen)).length = (responsesTo true (lineHistory seen)).length ∧
      responsesTo true (lineHistory seen) = [bytes ":0\r\n"] := by
  have launched := @Node.launch_ok (bytes "wal") {} (.holding none) (by decide)
  have fair : ∀ round ∈ List.replicate 19 fullDisk, ∀ client ∈ (Finset.univ : Finset Bool),
      ∃ outcomes, (client, outcomes) ∈ round := by
    intro round member client _
    rw [List.eq_of_mem_replicate member]
    cases client with
    | false => exact ⟨_, List.mem_cons_of_mem _ List.mem_cons_self⟩
    | true => exact ⟨_, List.mem_cons_self⟩
  obtain ⟨-, answered⟩ := all_lines_answered launched.2.toReady
    (fun turn _ => Finset.mem_univ turn.1) fair (by decide)
  exact ⟨(answered true).2, by decide⟩

end AsterKV.Concurrent
