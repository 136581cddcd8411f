/-
# Theory.Linearizability -- concurrent histories and their sequential orders

A history is the list of what clients see: calls and returns.  A `Linearization`
puts the operations that took effect in one order in which they make a run of a
sequential object, answer as the clients were told, and never contradict real time.

A `Recorder` builds such an order while the history grows: a call stands open, takes
effect at one point, and returns afterwards.  `Recorded.move` is the one invariant
lemma, so a system is linearizable as soon as each of its steps is one of the three
moves or none.
-/
import Mathlib.Data.List.Basic
import Mathlib.Logic.Function.Basic

namespace Theory.Linearizability

set_option autoImplicit false

universe u

variable {C I O S : Type u}

/-! ## Histories -/

inductive Event (C I O : Type u) where
  | call (client : C) (input : I)
  | ret (client : C) (output : O)
  deriving DecidableEq

def Event.client : Event C I O → C
  | .call client _ => client
  | .ret client _ => client

/-- An operation that took effect; `calledAt` is the place of its call in the
history. -/
structure Operation (C I O : Type u) where
  client : C
  input : I
  output : O
  calledAt : Nat

/-- What the sequential object sees of an operation. -/
def Operation.exchange (op : Operation C I O) : I × O := (op.input, op.output)

/-- A run of the sequential object. -/
def Sequential (Spec : S → I → O → S → Prop) : S → List (I × O) → S → Prop
  | s, [], t => s = t
  | s, (input, output) :: rest, t =>
      ∃ next, Spec s input output next ∧ Sequential Spec next rest t

theorem sequential_append {Spec : S → I → O → S → Prop} {s t : S}
    {first second : List (I × O)} :
    Sequential Spec s (first ++ second) t ↔
      ∃ middle, Sequential Spec s first middle ∧ Sequential Spec middle second t := by
  induction first generalizing s with
  | nil =>
      constructor
      · exact fun run => ⟨s, rfl, run⟩
      · rintro ⟨middle, rfl, run⟩
        exact run
  | cons exchange rest ih =>
      constructor
      · rintro ⟨next, answer, run⟩
        obtain ⟨middle, before, after⟩ := ih.1 run
        exact ⟨middle, ⟨next, answer, before⟩, after⟩
      · rintro ⟨middle, ⟨next, answer, before⟩, after⟩
        exact ⟨next, answer, ih.2 ⟨middle, before, after⟩⟩

theorem sequential_snoc {Spec : S → I → O → S → Prop} {s t u : S} {run : List (I × O)}
    {input : I} {output : O} (first : Sequential Spec s run t) (last : Spec t input output u) :
    Sequential Spec s (run ++ [(input, output)]) u :=
  sequential_append.2 ⟨t, first, u, last, rfl⟩

/-- The return at place `p` is the answer to this operation's call: the client did
nothing in between. -/
def Answers (history : List (Event C I O)) (op : Operation C I O) (p : Nat) : Prop :=
  op.calledAt < p ∧ ∀ q event, op.calledAt < q → q < p → history[q]? = some event →
    event.client ≠ op.client

/-- The first operation returned before the second was called. -/
def Precedes (history : List (Event C I O)) (first second : Operation C I O) : Prop :=
  ∃ p output, first.calledAt < p ∧ p < second.calledAt ∧
    history[p]? = some (.ret first.client output)

structure Linearization (Spec : S → I → O → S → Prop) (init : S)
    (history : List (Event C I O)) (order : List (Operation C I O)) (final : S) : Prop where
  /-- The order is a run of the sequential object. -/
  sequential : Sequential Spec init (order.map Operation.exchange) final
  /-- Every operation of the order was called. -/
  genuine : ∀ op ∈ order, history[op.calledAt]? = some (.call op.client op.input)
  /-- No call took effect twice. -/
  once : (order.map Operation.calledAt).Nodup
  /-- Every return is the answer of an operation of the order. -/
  complete : ∀ p client output, history[p]? = some (.ret client output) →
    ∃ op ∈ order, op.client = client ∧ op.output = output ∧ Answers history op p
  /-- A client's operations stand in the order of its calls. -/
  program : order.Pairwise fun first second =>
    first.client = second.client → first.calledAt < second.calledAt
  /-- No operation stands before one that returned before it was called. -/
  realTime : order.Pairwise fun first second => ¬ Precedes history second first

/-! ## Histories that grow -/

theorem getElem?_snoc {α : Type u} {list : List α} {last found : α} {p : Nat}
    (at_p : (list ++ [last])[p]? = some found) :
    list[p]? = some found ∨ (p = list.length ∧ found = last) := by
  rcases Nat.lt_trichotomy p list.length with before | rfl | after
  · rw [List.getElem?_append_left before] at at_p
    exact Or.inl at_p
  · rw [List.getElem?_concat_length] at at_p
    exact Or.inr ⟨rfl, (Option.some.inj at_p).symm⟩
  · have : (list ++ [last])[p]? = none := List.getElem?_eq_none (by simp; omega)
    rw [this] at at_p
    cases at_p

theorem getElem?_grown {α : Type u} {list : List α} {found : α} {p : Nat} (more : List α)
    (at_p : list[p]? = some found) : (list ++ more)[p]? = some found := by
  rw [List.getElem?_append_left (List.getElem?_eq_some_iff.1 at_p).1, at_p]

theorem Answers.grown {history : List (Event C I O)} {op : Operation C I O} {p : Nat}
    (answers : Answers history op p) (inRange : p ≤ history.length) (event : Event C I O) :
    Answers (history ++ [event]) op p := by
  refine ⟨answers.1, fun q seen after before at_q => ?_⟩
  rcases getElem?_snoc at_q with old | ⟨rfl, -⟩
  · exact answers.2 q seen after before old
  · omega

/-- What comes later in the history precedes nothing called before it. -/
theorem Precedes.shrunk {history : List (Event C I O)} {event : Event C I O}
    {first second : Operation C I O} (inRange : second.calledAt < history.length)
    (precedes : Precedes (history ++ [event]) first second) : Precedes history first second := by
  obtain ⟨p, output, after, before, at_p⟩ := precedes
  rcases getElem?_snoc at_p with old | ⟨rfl, -⟩
  · exact ⟨p, output, after, before, old⟩
  · omega

theorem Linearization.calledAt_lt {Spec : S → I → O → S → Prop} {init final : S}
    {history : List (Event C I O)} {order : List (Operation C I O)}
    (linear : Linearization Spec init history order final) {op : Operation C I O}
    (member : op ∈ order) : op.calledAt < history.length :=
  (List.getElem?_eq_some_iff.1 (linear.genuine op member)).1

/-- Only the returns of the new part need an operation. -/
theorem Linearization.grown {Spec : S → I → O → S → Prop} {init final : S}
    {history : List (Event C I O)} {order : List (Operation C I O)}
    (linear : Linearization Spec init history order final) {event : Event C I O}
    (answered : ∀ client output, event = .ret client output →
      ∃ op ∈ order, op.client = client ∧ op.output = output ∧
        Answers history op history.length) :
    Linearization Spec init (history ++ [event]) order final where
  sequential := linear.sequential
  genuine op member := getElem?_grown [event] (linear.genuine op member)
  once := linear.once
  complete p client output at_p := by
    rcases getElem?_snoc at_p with old | ⟨rfl, last⟩
    · obtain ⟨op, member, sameClient, sameOutput, answers⟩ := linear.complete p client output old
      have inRange := (List.getElem?_eq_some_iff.1 old).1
      exact ⟨op, member, sameClient, sameOutput, answers.grown (Nat.le_of_lt inRange) event⟩
    · obtain ⟨op, member, sameClient, sameOutput, answers⟩ := answered client output last.symm
      exact ⟨op, member, sameClient, sameOutput, answers.grown (Nat.le_refl _) event⟩
  program := linear.program
  realTime := by
    refine linear.realTime.imp_of_mem fun inOrder _ never precedes => never ?_
    exact precedes.shrunk (linear.calledAt_lt inOrder)

/-! ## Recorders -/

/-- What a client is waiting for: nothing, its operation's effect, or its return. -/
inductive Standing (I O : Type u) where
  | idle
  | pending (calledAt : Nat) (input : I)
  | done (calledAt : Nat) (input : I) (output : O)

/-- The input a client waits for, with the output it is going to get. -/
def Standing.view : Standing I O → Option (I × Option O)
  | .idle => none
  | .pending _ input => some (input, none)
  | .done _ input output => some (input, some output)

theorem Standing.view_eq_pending {standing : Standing I O} {input : I}
    (view : standing.view = some (input, none)) :
    ∃ calledAt, standing = .pending calledAt input := by
  cases standing with
  | pending calledAt asked =>
      cases view
      exact ⟨calledAt, rfl⟩
  | idle | done => cases view

theorem Standing.view_eq_done {standing : Standing I O} {input : I} {output : O}
    (view : standing.view = some (input, some output)) :
    ∃ calledAt, standing = .done calledAt input output := by
  cases standing with
  | done calledAt asked answered =>
      cases view
      exact ⟨calledAt, rfl⟩
  | idle | pending => cases view

structure Recorder (C I O S : Type u) where
  history : List (Event C I O)
  order : List (Operation C I O)
  state : S
  standing : C → Standing I O

namespace Recorder

def start (init : S) : Recorder C I O S :=
  { history := [], order := [], state := init, standing := fun _ => .idle }

variable [DecidableEq C]

def call (r : Recorder C I O S) (client : C) (input : I) : Recorder C I O S :=
  { r with
    history := r.history ++ [.call client input]
    standing := Function.update r.standing client (.pending r.history.length input) }

/-- The operation of the call at this place takes effect. -/
def point (r : Recorder C I O S) (client : C) (calledAt : Nat) (input : I) (output : O)
    (next : S) : Recorder C I O S :=
  { history := r.history
    order := r.order ++ [⟨client, input, output, calledAt⟩]
    state := next
    standing := Function.update r.standing client (.done calledAt input output) }

def ret (r : Recorder C I O S) (client : C) (output : O) : Recorder C I O S :=
  { r with
    history := r.history ++ [.ret client output]
    standing := Function.update r.standing client .idle }

end Recorder

/-- The three moves, each with its guard. -/
inductive Move [DecidableEq C] (Spec : S → I → O → S → Prop) (r : Recorder C I O S) :
    Recorder C I O S → Prop where
  | call (client : C) (input : I) (idle : r.standing client = .idle) :
      Move Spec r (r.call client input)
  | point (client : C) (calledAt : Nat) (input : I) (output : O) (next : S)
      (pending : r.standing client = .pending calledAt input)
      (answer : Spec r.state input output next) :
      Move Spec r (r.point client calledAt input output next)
  | ret (client : C) (calledAt : Nat) (input : I) (output : O)
      (done : r.standing client = .done calledAt input output) :
      Move Spec r (r.ret client output)

/-- The client's last event is its call at this place. -/
def OpenCall (history : List (Event C I O)) (client : C) (calledAt : Nat) (input : I) : Prop :=
  history[calledAt]? = some (.call client input) ∧
    ∀ q event, calledAt < q → history[q]? = some event → event.client ≠ client

structure Recorded (Spec : S → I → O → S → Prop) (init : S) (r : Recorder C I O S) : Prop where
  linear : Linearization Spec init r.history r.order r.state
  pending : ∀ client calledAt input, r.standing client = .pending calledAt input →
    OpenCall r.history client calledAt input ∧
      ∀ op ∈ r.order, op.client = client → op.calledAt < calledAt
  done : ∀ client calledAt input output, r.standing client = .done calledAt input output →
    OpenCall r.history client calledAt input ∧ ⟨client, input, output, calledAt⟩ ∈ r.order

theorem recorded_start (Spec : S → I → O → S → Prop) (init : S) :
    Recorded Spec init (Recorder.start init : Recorder C I O S) where
  linear :=
    { sequential := rfl
      genuine := fun _ member => absurd member List.not_mem_nil
      once := List.nodup_nil
      complete := fun p client output at_p => by simp [Recorder.start] at at_p
      program := List.Pairwise.nil
      realTime := List.Pairwise.nil }
  pending _ _ _ standing := by cases standing
  done _ _ _ _ standing := by cases standing

theorem OpenCall.grown {history : List (Event C I O)} {client : C} {calledAt : Nat} {input : I}
    (isOpen : OpenCall history client calledAt input) {event : Event C I O}
    (other : event.client ≠ client) : OpenCall (history ++ [event]) client calledAt input := by
  refine ⟨getElem?_grown _ isOpen.1, fun q seen after at_q => ?_⟩
  rcases getElem?_snoc at_q with old | ⟨-, rfl⟩
  · exact isOpen.2 q seen after old
  · exact other

section Moves

variable [DecidableEq C] {Spec : S → I → O → S → Prop} {init : S} {r : Recorder C I O S}

theorem Recorded.call (recorded : Recorded Spec init r) (client : C) (input : I) :
    Recorded Spec init (r.call client input) where
  linear := recorded.linear.grown fun _ _ impossible => by cases impossible
  pending other calledAt asked standing := by
    by_cases same : other = client
    · subst same
      simp only [Recorder.call, Function.update_self, Standing.pending.injEq] at standing
      obtain ⟨rfl, rfl⟩ := standing
      refine ⟨⟨List.getElem?_concat_length, fun q event after at_q => ?_⟩, fun op member _ => ?_⟩
      · rcases getElem?_snoc at_q with old | ⟨rfl, -⟩
        · have := (List.getElem?_eq_some_iff.1 old).1
          omega
        · omega
      · exact recorded.linear.calledAt_lt member
    · simp only [Recorder.call, Function.update_of_ne same] at standing
      obtain ⟨isOpen, earlier⟩ := recorded.pending other calledAt asked standing
      exact ⟨isOpen.grown (Ne.symm same), earlier⟩
  done other calledAt asked output standing := by
    by_cases same : other = client
    · subst same
      simp [Recorder.call] at standing
    · simp only [Recorder.call, Function.update_of_ne same] at standing
      obtain ⟨isOpen, member⟩ := recorded.done other calledAt asked output standing
      exact ⟨isOpen.grown (Ne.symm same), member⟩

theorem Recorded.point (recorded : Recorded Spec init r) {client : C} {calledAt : Nat} {input : I}
    {output : O} {next : S} (standing : r.standing client = .pending calledAt input)
    (answer : Spec r.state input output next) :
    Recorded Spec init (r.point client calledAt input output next) := by
  obtain ⟨isOpen, earlier⟩ := recorded.pending client calledAt input standing
  refine { linear := ?linear, pending := ?pending, done := ?done }
  case linear =>
    refine { sequential := ?_, genuine := ?_, once := ?_, complete := ?_, program := ?_,
             realTime := ?_ }
    · simp only [Recorder.point, List.map_append, List.map_singleton]
      exact sequential_snoc recorded.linear.sequential answer
    · intro op member
      rcases List.mem_append.1 member with old | new
      · exact recorded.linear.genuine op old
      · rw [List.mem_singleton.1 new]
        exact isOpen.1
    · simp only [Recorder.point, List.map_append, List.map_singleton]
      refine List.nodup_append.2 ⟨recorded.linear.once, List.pairwise_singleton _ _, ?_⟩
      intro place inOrder other isNew same
      obtain ⟨op, member, rfl⟩ := List.mem_map.1 inOrder
      rw [List.mem_singleton.1 isNew] at same
      have calls := recorded.linear.genuine op member
      rw [same, isOpen.1] at calls
      -- the call at this place is the client's own, and all its operations came earlier
      have sameClient : op.client = client := (Event.call.inj (Option.some.inj calls)).1.symm
      have := earlier op member sameClient
      omega
    · intro p returned answered at_p
      obtain ⟨op, member, rest⟩ := recorded.linear.complete p returned answered at_p
      exact ⟨op, List.mem_append_left _ member, rest⟩
    · refine List.pairwise_append.2 ⟨recorded.linear.program, List.pairwise_singleton _ _, ?_⟩
      intro op member new isNew sameClient
      rw [List.mem_singleton.1 isNew] at sameClient ⊢
      exact earlier op member sameClient
    · refine List.pairwise_append.2 ⟨recorded.linear.realTime, List.pairwise_singleton _ _, ?_⟩
      rintro op member new isNew ⟨p, answered, after, -, at_p⟩
      rw [List.mem_singleton.1 isNew] at after at_p
      exact isOpen.2 p _ after at_p rfl
  case pending =>
    intro other place asked waiting
    by_cases same : other = client
    · subst same
      simp [Recorder.point] at waiting
    · simp only [Recorder.point, Function.update_of_ne same] at waiting
      obtain ⟨otherOpen, otherEarlier⟩ := recorded.pending other place asked waiting
      refine ⟨otherOpen, fun op member sameClient => ?_⟩
      rcases List.mem_append.1 member with old | new
      · exact otherEarlier op old sameClient
      · rw [List.mem_singleton.1 new] at sameClient
        exact absurd sameClient.symm same
  case done =>
    intro other place asked answered waiting
    by_cases same : other = client
    · subst same
      simp only [Recorder.point, Function.update_self, Standing.done.injEq] at waiting
      obtain ⟨rfl, rfl, rfl⟩ := waiting
      exact ⟨isOpen, List.mem_append_right _ List.mem_cons_self⟩
    · simp only [Recorder.point, Function.update_of_ne same] at waiting
      obtain ⟨otherOpen, member⟩ := recorded.done other place asked answered waiting
      exact ⟨otherOpen, List.mem_append_left _ member⟩

theorem Recorded.ret (recorded : Recorded Spec init r) {client : C} {calledAt : Nat} {input : I}
    {output : O} (standing : r.standing client = .done calledAt input output) :
    Recorded Spec init (r.ret client output) where
  linear := by
    obtain ⟨isOpen, member⟩ := recorded.done client calledAt input output standing
    refine recorded.linear.grown fun returned answered last => ?_
    obtain ⟨rfl, rfl⟩ := Event.ret.inj last
    refine ⟨_, member, rfl, rfl, (List.getElem?_eq_some_iff.1 isOpen.1).1, ?_⟩
    exact fun q event after _ at_q => isOpen.2 q event after at_q
  pending other place asked waiting := by
    by_cases same : other = client
    · subst same
      simp [Recorder.ret] at waiting
    · simp only [Recorder.ret, Function.update_of_ne same] at waiting
      obtain ⟨isOpen, earlier⟩ := recorded.pending other place asked waiting
      exact ⟨isOpen.grown (Ne.symm same), earlier⟩
  done other place asked answered waiting := by
    by_cases same : other = client
    · subst same
      simp [Recorder.ret] at waiting
    · simp only [Recorder.ret, Function.update_of_ne same] at waiting
      obtain ⟨isOpen, member⟩ := recorded.done other place asked answered waiting
      exact ⟨isOpen.grown (Ne.symm same), member⟩

/-- **A recorder's order linearizes its history after every move.** -/
theorem Recorded.move (recorded : Recorded Spec init r) {next : Recorder C I O S}
    (move : Move Spec r next) : Recorded Spec init next := by
  cases move with
  | call client input _ => exact recorded.call client input
  | point client calledAt input output after pending answer => exact recorded.point pending answer
  | ret client calledAt input output done => exact recorded.ret done

end Moves

end Theory.Linearizability
