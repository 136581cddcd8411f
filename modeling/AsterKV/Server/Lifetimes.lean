/-
# AsterKV.Server.Lifetimes -- a log outlives its processes

A server with a log serves its clients, ends, and another one is started on the same file,
any number of times.  While no call on the file fails, the clients of all these processes
are answered by one map: a process begins with what the lines executed before it made of
the map (`restarts_refine_map`).

What is carried from line to line is `Holds`, what is carried from life to life is
`Survives`.
-/
import AsterKV.Network.WorkerResponses
import AsterKV.Pipeline.LoggedPipeline
import AsterKV.Server.TcpServerRuntime
import AsterKV.Wal.WriterRuns

namespace AsterKV.Server

open AsterKV.Core AsterKV.Network AsterKV.Pipeline AsterKV.Storage AsterKV.Wal
open Theory
open Theory.Lines (Terminated terminated_nil)
open TcpServerRuntime (lineServerOptions)

set_option autoImplicit false

/-! ## Lines over the logged engine -/

/-- A kernel that does not fail goes on not failing. -/
theorem clean_logMutation (engine : WalBackedStorage) (record : WalRecord)
    (apply : InMemoryStorage → Status × InMemoryStorage) {fs : FileSystem}
    (clean : fs.pending.NoFailure) :
    (engine.logMutation record apply fs).2.2.pending.NoFailure := by
  have kept := (WalFileWriter.appendRecord_effects engine.writer record fs).carries.clean clean
  unfold WalBackedStorage.logMutation
  generalize engine.writer.appendRecord record fs = appended at kept ⊢
  obtain ⟨appendStatus, writer, after⟩ := appended
  dsimp only
  split
  · exact clean
  · split
    · exact kept
    · split <;> exact kept

theorem clean_call {node : Node} (clean : node.fs.pending.NoFailure) (c : Call) :
    (StorageEngine.call node c).2.fs.pending.NoFailure := by
  cases c with
  | set key value =>
      show (node.engine.set key value node.fs).2.2.pending.NoFailure
      exact clean_logMutation node.engine _ _ clean
  | get key => exact clean
  | exists? key => exact clean
  | remove key =>
      show (node.engine.remove key node.fs).2.2.pending.NoFailure
      unfold WalBackedStorage.remove
      split
      · exact clean
      · exact clean
      · exact clean_logMutation node.engine _ _ clean

theorem clean_recover (engine : WalBackedStorage) {fs : FileSystem} (clean : fs.pending.NoFailure) :
    (engine.recover fs).2.2.pending.NoFailure := by
  have opened : ∀ other : WalBackedStorage, (other.openWriter fs).2.2.pending.NoFailure :=
    fun other => (WalFileWriter.openFile_keeps other.writer fs).1.carries.clean clean
  unfold WalBackedStorage.recover
  dsimp only
  split
  · exact clean
  · split
    · exact clean
    · split
      · exact opened _
      · split
        · exact clean
        · split
          · exact clean
          · exact opened _

/-- What a node with a faultless kernel holds, and for how many mutations it has numbers. -/
structure Holds (node : Node) (map : MapMachine.Map) (mutations : Nat) : Prop where
  synced : Node.Synced node
  clean : node.fs.pending.NoFailure
  room : Room node.ledger mutations
  map : node.ledger.storage.values = map

/-- The engine behind the interface is the node. -/
theorem processLine_wal (node : Node) (line : Bytes) :
    processLine (PipelineStorage.wal node) line =
      ((processLine node line).1, .wal (processLine node line).2) := by
  have alike := processLine_congr (s := PipelineStorage.wal node) (t := node)
    (R := fun engine other => engine = .wal other) line rfl (by
      intro c calls
      cases c <;> exact ⟨rfl, rfl⟩)
  exact Prod.ext alike.1 alike.2

/-- **One line over the logged engine is one line over the map.** -/
theorem Holds.processLine {node : Node} {map : MapMachine.Map} {mutations : Nat} {line : Bytes}
    (holds : Holds node map (mutations + if mutates line then 1 else 0)) :
    ∃ next, Pipeline.processLine (PipelineStorage.wal node) line =
        ((MapMachine.step map line).1.render, .wal next) ∧
      Holds next (MapMachine.step map line).2 mutations := by
  obtain ⟨answer, synced, room, storage⟩ :=
    processLogged_simulates holds.synced holds.clean line holds.room
  obtain ⟨rendered, stepped⟩ := processLine_eq_step node.ledger.storage line
  have clean : (Pipeline.processLine node line).2.fs.pending.NoFailure := by
    have kept := processLine_congr (s := node) (t := node)
      (R := fun engine other => engine = other ∧ engine.fs.pending.NoFailure) line
      ⟨rfl, holds.clean⟩ fun c calls => ⟨rfl, rfl, clean_call holds.clean c⟩
    exact kept.2.2
  rw [holds.map] at rendered stepped
  refine ⟨(Pipeline.processLine node line).2, ?_, synced, clean, room, ?_⟩
  · rw [processLine_wal]
    exact Prod.ext (answer.trans rendered) rfl
  · exact congrArg InMemoryStorage.values (storage.trans stepped)

/-- A shared run over the logged engine is one over the map. -/
theorem Holds.told {node : Node} {map : MapMachine.Map} {mutations : Nat}
    {entries : List (Nat × Bytes)}
    (holds : Holds node map (mutations + entries.countP fun entry => mutates entry.2))
    (client : Nat) :
    Machine.told Pipeline.processLine client (PipelineStorage.wal node) entries =
        (Machine.told MapMachine.step client map entries).map
          (fun told => (told.1, told.2.render)) ∧
      ∃ last, Machine.after Pipeline.processLine (PipelineStorage.wal node)
          (entries.map Prod.snd) = .wal last ∧
        Holds last (Machine.after MapMachine.step map (entries.map Prod.snd)) mutations := by
  induction entries generalizing node map with
  | nil => exact ⟨rfl, node, rfl, holds⟩
  | cons entry rest ih =>
      obtain ⟨sender, line⟩ := entry
      rw [List.countP_cons, ← Nat.add_assoc] at holds
      obtain ⟨next, answer, later⟩ := holds.processLine
      obtain ⟨answers, last, reached, ends⟩ := ih later
      simp only [Machine.told, List.map_cons, Machine.after_cons, answer]
      refine ⟨?_, last, reached, ends⟩
      split
      · rw [answers]
        rfl
      · exact answers

/-! ## The start of a process -/

/-- The file on the disk stands for a map, and has numbers for more mutations. -/
structure Survives (disk : FileSystem) (map : MapMachine.Map) (mutations : Nat) : Prop where
  parent : (validateParentDirectory disk.parent).isOk = true
  terminated : Terminated lineFeed disk.content
  stands : ∃ ledger, ledgerOf disk.content = some ledger ∧ Room ledger mutations ∧
    ledger.storage.values = map

theorem survives_absent {disk : FileSystem} (absent : disk.file = none)
    (parent : (validateParentDirectory disk.parent).isOk = true) {mutations : Nat}
    (few : mutations < 2 ^ 64 - 1) : Survives disk ∅ mutations := by
  have content : disk.content = [] := by rw [FileSystem.content, absent]; rfl
  refine ⟨parent, by rw [content]; exact terminated_nil lineFeed, ?_⟩
  refine ⟨{ storage := .empty, next := 1 }, by rw [content]; rfl, ⟨by decide, ?_⟩, rfl⟩
  show 1 + mutations < 2 ^ 64
  omega

/-- What a process leaves holds again. -/
theorem Holds.survives {node : Node} {map : MapMachine.Map} {mutations : Nat}
    (holds : Holds node map mutations) (fs : FileSystem) (orderly : Bool) :
    Survives ((PipelineStorage.wal node).ended fs orderly) map mutations := by
  have same : ((PipelineStorage.wal node).ended fs orderly).file = node.fs.file ∧
      ((PipelineStorage.wal node).ended fs orderly).parent = node.fs.parent := by
    cases orderly with
    | false => exact ⟨rfl, rfl⟩
    | true =>
        obtain ⟨file, parent, -⟩ := node.engine.writer.destroy_keeps node.fs
        exact ⟨file, parent⟩
  have content : ((PipelineStorage.wal node).ended fs orderly).content = node.fs.content := by
    rw [FileSystem.content, FileSystem.content, same.1]
  refine ⟨same.2 ▸ holds.synced.parent, content ▸ holds.synced.terminated, node.ledger, ?_,
    holds.room, holds.map⟩
  rw [content, holds.synced.stands]

/-- **A process recovers what survives.** -/
theorem Survives.recover {options : TcpServerOptions} (enabled : isWalEnabled options = true)
    {disk : FileSystem} {map : MapMachine.Map} {mutations : Nat}
    (survives : Survives disk map mutations) {kernel : Outcomes} (clean : kernel.NoFailure) :
    ∃ node, TcpServerRuntime.recoverStorage
        (makePipelineStorage options { disk with pending := kernel }) = (.ok, .wal node) ∧
      Holds node map mutations := by
  have named : options.walFilePath ≠ [] := by simpa [isWalEnabled] using enabled
  obtain ⟨ledger, stands, room, values⟩ := survives.stands
  generalize file : ({ disk with pending := kernel } : FileSystem) = fs
  have content : fs.content = disk.content := by rw [← file]; rfl
  have pending : fs.pending.NoFailure := by rw [← file]; exact clean
  have parent : (validateParentDirectory fs.parent).isOk = true := by
    rw [← file]; exact survives.parent
  let engineOptions : WalBackedStorageOptions :=
    { writerOptions := { syncPolicy := options.walSyncPolicy } }
  have ok : (Node.launch options.walFilePath engineOptions fs).1.isOk = true :=
    Node.launch_isOk named parent pending (by rw [content, stands]; rfl)
  obtain ⟨status, launched⟩ := Node.launch_ok ok
  have synced := Node.synced_launch (by rw [content]; exact survives.terminated) ok
  have same : (Node.launch options.walFilePath engineOptions fs).2.ledger = ledger := by
    have holds := launched.stands
    rw [content, stands] at holds
    exact (Option.some.inj holds).symm
  refine ⟨(Node.launch options.walFilePath engineOptions fs).2, ?_, synced, ?_, ?_, ?_⟩
  · rw [makePipelineStorage, enabled]
    exact Prod.ext status rfl
  · exact clean_recover _ pending
  · rw [same]
    exact room
  · rw [same]
    exact values

/-! ## One life -/

/-- What the clients of a life see when it starts from a map: each is answered its part of
the map's answers to the lines executed.  A life that ends before it serves does not end for
its log. -/
def Answers (options : TcpServerOptions) (life : Life) (map : MapMachine.Map) : Run → Prop
  | .returned _ _ => (install life.signals).isOk = false ∨
      (validateOptions (lineServerOptions options)).isOk = false ∨
      (createListeningSocket life.listening).isOk = false
  | .serving system => ∀ worker ∈ system.threads,
      worker.serving.session.answers =
        (Machine.told MapMachine.step worker.client map system.executed).map
          fun told => (told.1, told.2.render)

/-- The map after the lines of a life. -/
def mapAfter (map : MapMachine.Map) (life : Run) : MapMachine.Map :=
  Machine.after MapMachine.step map (life.executed.map Prod.snd)

/-- How many of its lines ask for a change. -/
def mutationsOf (life : Run) : Nat := life.executed.countP fun entry => mutates entry.2

/-- How a process gets to its accept loop, or not, once its log is recovered. -/
theorem run_of_recovered {runtime : TcpServerRuntime} {storage : PipelineStorage}
    (recovered : TcpServerRuntime.recoverStorage runtime.storage = (.ok, storage))
    (signals : SignalOutcomes) (listening : ListenOutcomes) (stop : StopRequested) :
    (runtime.run signals listening stop = .serving (.initial storage stop)) ∨
      ∃ status, runtime.run signals listening stop = .returned status storage ∧
        ((install signals).isOk = false ∨
          (validateOptions (lineServerOptions runtime.options)).isOk = false ∨
          (createListeningSocket listening).isOk = false) := by
  simp only [TcpServerRuntime.run, recovered, Status.isOk_ok, Bool.not_true, Bool.false_eq_true,
    if_false]
  cases handlers : (install signals).isOk with
  | false => exact Or.inr ⟨_, rfl, Or.inl rfl⟩
  | true =>
      cases valid : (validateOptions (lineServerOptions runtime.options)).isOk with
      | false => exact Or.inr ⟨_, rfl, Or.inr (Or.inl rfl)⟩
      | true =>
          cases created : createListeningSocket listening with
          | error failure => exact Or.inr ⟨_, rfl, Or.inr (Or.inr rfl)⟩
          | ok created => exact Or.inl rfl

/-- **One life on a log that survives**: its clients are answered by the map, and the log
survives it. -/
theorem Survives.after_life {options : TcpServerOptions} (enabled : isWalEnabled options = true)
    {disk : FileSystem} {life : Life} (clean : life.kernel.NoFailure) {map : MapMachine.Map}
    {mutations : Nat}
    (survives : Survives disk map (mutations + mutationsOf (lifetime options disk life).1)) :
    Answers options life map (lifetime options disk life).1 ∧
      Survives (lifetime options disk life).2 (mapAfter map (lifetime options disk life).1)
        mutations := by
  obtain ⟨node, recovered, holds⟩ := survives.recover enabled clean
  rcases @run_of_recovered (.create options { disk with pending := life.kernel }) _
    recovered life.signals life.listening life.stop with serves | ⟨status, returns, failed⟩
  · have alive : lifetime options disk life =
        (.serving ((Workers.initial (.wal node) life.stop).after (localPipeline PipelineStorage)
          (lineServerOptions options) life.schedule),
          (((Workers.initial (.wal node) life.stop).after (localPipeline PipelineStorage)
            (lineServerOptions options) life.schedule).storage).ended
              { disk with pending := life.kernel } life.orderly) := by
      simp only [lifetime, serves]
    have answered := Workers.after_answered (localPipeline PipelineStorage)
      (lineServerOptions options) (.wal node) life.stop life.schedule
    have recorded := (Workers.after_sound (localPipeline PipelineStorage)
      (lineServerOptions options) (.wal node) life.stop life.schedule).recorded
    rw [alive] at holds ⊢
    generalize (Workers.initial (.wal node) life.stop).after (localPipeline PipelineStorage)
      (lineServerOptions options) life.schedule = system at answered recorded holds ⊢
    have told := fun client => Holds.told holds client
    refine ⟨fun worker member => ?_, ?_⟩
    · obtain ⟨index, thread⟩ := List.mem_iff_getElem?.1 member
      exact (answered index worker thread).trans (told worker.client).1
    · obtain ⟨last, reached, ends⟩ := (told 0).2
      have stored : system.storage = .wal last := recorded.storage.trans reached
      show Survives (system.storage.ended { disk with pending := life.kernel } life.orderly) _ _
      rw [stored]
      exact ends.survives _ _
  · have gone : lifetime options disk life = (.returned status (.wal node),
        (PipelineStorage.wal node).ended { disk with pending := life.kernel } life.orderly) := by
      simp only [lifetime, returns]
    rw [gone] at holds ⊢
    have holds : Holds node map mutations := holds
    exact ⟨failed, holds.survives { disk with pending := life.kernel } life.orderly⟩

/-! ## Many lives -/

/-- The map after all these lives. -/
def mapAfterLives (map : MapMachine.Map) (lives : List Run) : MapMachine.Map :=
  lives.foldl mapAfter map

theorem Survives.after_lives {options : TcpServerOptions} (enabled : isWalEnabled options = true)
    {lives : List Life} {disk : FileSystem} (clean : ∀ life ∈ lives, life.kernel.NoFailure)
    {map : MapMachine.Map} {mutations : Nat}
    (survives : Survives disk map (mutations +
      ((Machine.run (lifetime options) disk lives).1.map mutationsOf).sum)) :
    Survives (Machine.after (lifetime options) disk lives)
      (mapAfterLives map (Machine.run (lifetime options) disk lives).1) mutations := by
  induction lives generalizing disk map with
  | nil => exact survives
  | cons life rest ih =>
      have shape : mutations +
          ((Machine.run (lifetime options) disk (life :: rest)).1.map mutationsOf).sum =
          mutations + ((Machine.run (lifetime options) (lifetime options disk life).2 rest).1.map
            mutationsOf).sum + mutationsOf (lifetime options disk life).1 := by
        rw [Machine.run_cons, List.map_cons, List.sum_cons]
        omega
      rw [shape] at survives
      have next := (survives.after_life enabled (clean life List.mem_cons_self)).2
      rw [Machine.run_cons, Machine.after_cons]
      exact ih (fun other member => clean other (List.mem_cons_of_mem _ member)) next

/-- **Restarts cannot be noticed on the wire.**  Processes follow one another on a log file
that was absent, each ending between two turns of its threads, by itself or killed; no call on
the file fails and the lines executed ask for fewer than 2^64 - 1 changes.  Then the clients of
every process are answered by the map that the lines executed before it have left. -/
theorem restarts_refine_map {options : TcpServerOptions} (enabled : isWalEnabled options = true)
    {disk : FileSystem} (absent : disk.file = none)
    (parent : (validateParentDirectory disk.parent).isOk = true) {lives : List Life}
    (clean : ∀ life ∈ lives, life.kernel.NoFailure)
    (few : ((Machine.run (lifetime options) disk lives).1.map mutationsOf).sum < 2 ^ 64 - 1) :
    ∀ front life, front ++ [life] <+: lives →
      let before := (Machine.run (lifetime options) disk front).1
      Answers options life (mapAfterLives ∅ before)
        (lifetime options (Machine.after (lifetime options) disk front) life).1 := by
  rintro front life ⟨rest, rfl⟩ before
  have member : ∀ other ∈ front ++ [life], other.kernel.NoFailure :=
    fun other inside => clean other (List.mem_append_left _ inside)
  have fewer : (before.map mutationsOf).sum +
      mutationsOf (lifetime options (Machine.after (lifetime options) disk front) life).1 <
        2 ^ 64 - 1 := by
    have split : (Machine.run (lifetime options) disk (front ++ [life] ++ rest)).1 =
        before ++ (lifetime options (Machine.after (lifetime options) disk front) life).1 ::
          (Machine.run (lifetime options)
            (lifetime options (Machine.after (lifetime options) disk front) life).2 rest).1 := by
      rw [List.append_assoc, Machine.run_append]
      rfl
    rw [split, List.map_append, List.sum_append, List.map_cons, List.sum_cons] at few
    omega
  have survives := (survives_absent absent parent (Nat.add_comm _ _ ▸ fewer)).after_lives enabled
    fun other inside => member other (List.mem_append_left _ inside)
  rw [← Nat.zero_add (mutationsOf _)] at survives
  exact (survives.after_life enabled (member life (by simp))).1

def loggedOptions : TcpServerOptions := { defaultServerOptions with walFilePath := bytes "wal" }

/-- A client is accepted and served. -/
def served (request : Bytes) (fits : request.length ≤ receiveBufferSize ∧ request ≠ []) :
    List WorkerTurn :=
  [.main, .main, .main,
    .accept (.accepted { socket := { incoming := [.received ⟨request, fits.2, fits.1⟩ 0] } }),
    .main, .main, .main, .worker 0, .worker 0, .worker 0, .worker 0, .worker 0, .worker 0]

/-- A process that is killed after a set, whose bytes the kernel took in two parts. -/
def setLife : Life where
  kernel := { writes := [.accepted 4] }
  schedule := served (bytes "SET k v\n") ⟨by decide, by decide⟩

def getLife : Life where
  schedule := served (bytes "GET k\n") ⟨by decide, by decide⟩

theorem restarts_refine_map_set_get :
    let disk := FileSystem.holding none
    let before := (Machine.run (lifetime loggedOptions) disk [setLife]).1
    Answers loggedOptions getLife (mapAfterLives ∅ before)
        (lifetime loggedOptions (Machine.after (lifetime loggedOptions) disk [setLife]) getLife).1 ∧
      (mapAfterLives ∅ before).lookup (bytes "k") = some (bytes "v") := by
  refine ⟨?_, by decide⟩
  refine @restarts_refine_map loggedOptions (by decide) (FileSystem.holding none) rfl (by decide)
    [setLife, getLife] ?_ (by decide) [setLife] getLife (List.prefix_refl _)
  intro life member
  rcases List.mem_pair.1 member with rfl | rfl
  · exact { Outcomes.noFailure_default with writes := by simp [setLife] }
  · exact Outcomes.noFailure_default

end AsterKV.Server
