/-
# AsterKV.Server.LogGrowth -- what no life does to the log

Whatever the options and the kernel's answers are, and however the processes end, none of
them takes a byte of the log away (`log_append_only`).  Without a log there is nothing on the disk to change,
and every process starts from an empty map (`forgets_without_log`).
-/
import AsterKV.Server.Lifetimes

namespace AsterKV.Server

open AsterKV.Core AsterKV.Network AsterKV.Pipeline AsterKV.Storage AsterKV.Wal
open Theory
open TcpServerRuntime (lineServerOptions)

set_option autoImplicit false

/-! ## Growth -/

theorem grows_logMutation (engine : WalBackedStorage) (record : WalRecord)
    (apply : InMemoryStorage → Status × InMemoryStorage) (fs : FileSystem) :
    fs.content <+: (engine.logMutation record apply fs).2.2.content := by
  obtain ⟨added, content, -⟩ := (WalFileWriter.appendRecord_effects engine.writer record fs).added
  have grows : fs.content <+: (engine.writer.appendRecord record fs).2.2.content :=
    ⟨added, content.symm⟩
  unfold WalBackedStorage.logMutation
  generalize engine.writer.appendRecord record fs = appended at grows ⊢
  obtain ⟨appendStatus, writer, after⟩ := appended
  dsimp only
  split
  · exact List.prefix_refl _
  · split
    · exact grows
    · split <;> exact grows

theorem grows_call (node : Node) (c : Call) :
    node.fs.content <+: (StorageEngine.call node c).2.fs.content := by
  cases c with
  | set key value =>
      show _ <+: (node.engine.set key value node.fs).2.2.content
      exact grows_logMutation node.engine _ _ _
  | get key => exact List.prefix_refl _
  | exists? key => exact List.prefix_refl _
  | remove key =>
      show _ <+: (node.engine.remove key node.fs).2.2.content
      unfold WalBackedStorage.remove
      split
      · exact List.prefix_refl _
      · exact List.prefix_refl _
      · exact grows_logMutation node.engine _ _ _

/-- A recovery only reads the log. -/
theorem content_recover (engine : WalBackedStorage) (fs : FileSystem) :
    (engine.recover fs).2.2.content = fs.content := by
  have opened : ∀ other : WalBackedStorage, (other.openWriter fs).2.2.content = fs.content :=
    fun other => (WalFileWriter.openFile_keeps other.writer fs).2.2
  unfold WalBackedStorage.recover
  dsimp only
  split
  · rfl
  · split
    · rfl
    · split
      · exact opened _
      · split
        · rfl
        · split
          · rfl
          · exact opened _

/-- The engine of a process whose log is no shorter than these bytes, or no engine. -/
def Extends (content : Bytes) : PipelineStorage → Prop
  | .memory _ => True
  | .wal node => content <+: node.fs.content

theorem Extends.processLine {content : Bytes} {storage : PipelineStorage}
    (inLog : Extends content storage) (line : Bytes) :
    Extends content (Pipeline.processLine storage line).2 := by
  have kept := processLine_congr (s := storage) (t := storage)
    (R := fun engine other => engine = other ∧ Extends content engine) line ⟨rfl, inLog⟩
    fun c calls => ⟨rfl, rfl, by
      cases storage with
      | memory storage => cases c <;> exact trivial
      | wal node =>
          have grown := List.IsPrefix.trans inLog (grows_call node c)
          cases c <;> exact grown⟩
  exact kept.2.2

theorem Extends.ended {disk fs : FileSystem} (same : fs.content = disk.content)
    {storage : PipelineStorage} (inLog : Extends disk.content storage) (orderly : Bool) :
    disk.content <+: (storage.ended fs orderly).content := by
  cases storage with
  | memory storage =>
      show _ <+: fs.content
      rw [same]
  | wal node =>
      cases orderly with
      | false => exact inLog
      | true =>
          obtain ⟨file, -⟩ := node.engine.writer.destroy_keeps node.fs
          have content : (node.engine.writer.destroy node.fs).content = node.fs.content := by
            rw [FileSystem.content, FileSystem.content, file]
          show _ <+: (node.engine.writer.destroy node.fs).content
          rw [content]
          exact inLog

/-- A life starts, and may end, with the bytes it finds. -/
theorem extends_recoverStorage (options : TcpServerOptions) (fs : FileSystem) :
    Extends fs.content (TcpServerRuntime.recoverStorage (makePipelineStorage options fs)).2 := by
  unfold makePipelineStorage
  split
  · trivial
  · show _ <+: ((WalBackedStorage.create .empty options.walFilePath
      { writerOptions := { syncPolicy := options.walSyncPolicy } }).recover fs).2.2.content
    rw [content_recover]

/-- Both ways, `run` goes on with the storage that the recovery leaves. -/
theorem run_cases (runtime : TcpServerRuntime) (signals : SignalOutcomes)
    (listening : ListenOutcomes) (stop : StopRequested) :
    (∃ status, runtime.run signals listening stop =
        .returned status (TcpServerRuntime.recoverStorage runtime.storage).2) ∨
      runtime.run signals listening stop =
        .serving (.initial (TcpServerRuntime.recoverStorage runtime.storage).2 stop) := by
  simp only [TcpServerRuntime.run]
  split
  · exact Or.inl ⟨_, rfl⟩
  · split
    · exact Or.inl ⟨_, rfl⟩
    · split
      · exact Or.inl ⟨_, rfl⟩
      · split
        · exact Or.inl ⟨_, rfl⟩
        · exact Or.inr rfl

/-- A life adds to the log, or leaves it as it was. -/
theorem grows_lifetime (options : TcpServerOptions) (disk : FileSystem) (life : Life) :
    disk.content <+: (lifetime options disk life).2.content := by
  have start := extends_recoverStorage options { disk with pending := life.kernel }
  have same : ({ disk with pending := life.kernel } : FileSystem).content = disk.content := rfl
  rw [same] at start
  rcases run_cases (.create options { disk with pending := life.kernel }) life.signals
    life.listening life.stop with ⟨status, returns⟩ | serves
  · have gone : (lifetime options disk life).2 = (TcpServerRuntime.recoverStorage
        (makePipelineStorage options { disk with pending := life.kernel })).2.ended
          { disk with pending := life.kernel } life.orderly := by
      simp only [lifetime, returns]
      rfl
    rw [gone]
    exact start.ended same life.orderly
  · simp only [lifetime, serves]
    refine Extends.ended same ?_ life.orderly
    rw [(Workers.after_sound (localPipeline PipelineStorage) (lineServerOptions options) _
      life.stop life.schedule).recorded.storage]
    exact Machine.after_invariant _ (fun storage line inLog => inLog.processLine line) start _

/-- A process that is given the log at this path, or none; its other options are its own. -/
structure Process (path : Bytes) where
  options : TcpServerOptions
  sameLog : isWalEnabled options = true → options.walFilePath = path
  life : Life

def Process.lifetime {path : Bytes} (disk : FileSystem) (process : Process path) :
    Run × FileSystem :=
  Server.lifetime process.options disk process.life

/-- **The log is append-only.**  Over any number of processes, whatever their options are,
whatever the kernel answers to them and wherever they end, what is in the log stays where it
is. -/
theorem log_append_only {path : Bytes} (disk : FileSystem) (earlier later : List (Process path)) :
    (Machine.after Process.lifetime disk earlier).content <+:
      (Machine.after Process.lifetime disk (earlier ++ later)).content := by
  rw [Machine.after_append]
  generalize Machine.after Process.lifetime disk earlier = reached
  exact @Machine.after_invariant FileSystem (Process path) Run Process.lifetime
    (fun fs => reached.content <+: fs.content)
    (fun fs process grown => grown.trans (grows_lifetime process.options fs process.life)) reached
    (List.prefix_refl _) later

/-! ## No log -/

/-- Without a log the engine behind the interface is the in-memory storage. -/
theorem processLine_memory (storage : InMemoryStorage) (line : Bytes) :
    Pipeline.processLine (PipelineStorage.memory storage) line =
      ((MapMachine.step storage.values line).1.render,
        .memory ⟨(MapMachine.step storage.values line).2⟩) := by
  have alike := processLine_congr (s := PipelineStorage.memory storage) (t := storage)
    (R := fun engine other => engine = .memory other) line rfl (by
      intro c calls
      cases c <;> exact ⟨rfl, rfl⟩)
  obtain ⟨rendered, stepped⟩ := processLine_eq_step storage line
  exact Prod.ext (alike.1.trans rendered) (alike.2.trans (congrArg _ stepped))

/-- **Without a log nothing outlives a process.**  Its clients are answered by a map that
starts empty, whatever was executed before, and the disk is left alone. -/
theorem forgets_without_log {options : TcpServerOptions} (disabled : isWalEnabled options = false)
    (disk : FileSystem) (life : Life) :
    Answers options life ∅ (lifetime options disk life).1 ∧
      (lifetime options disk life).2 = { disk with pending := life.kernel } := by
  have memory : makePipelineStorage options { disk with pending := life.kernel } =
      .memory .empty := by rw [makePipelineStorage, disabled]; rfl
  have recovered : TcpServerRuntime.recoverStorage (TcpServerRuntime.create options
      { disk with pending := life.kernel }).storage = (.ok, .memory .empty) := by
    show TcpServerRuntime.recoverStorage (makePipelineStorage options _) = _
    rw [memory]
    rfl
  rcases run_of_recovered recovered life.signals life.listening life.stop with
    serves | ⟨status, returns, failed⟩
  · have answered := Workers.after_answered (localPipeline PipelineStorage)
      (lineServerOptions options) (.memory .empty) life.stop life.schedule
    have recorded := (Workers.after_sound (localPipeline PipelineStorage)
      (lineServerOptions options) (.memory .empty) life.stop life.schedule).recorded
    simp only [lifetime, serves]
    generalize (Workers.initial (.memory .empty) life.stop).after (localPipeline PipelineStorage)
      (lineServerOptions options) life.schedule = system at answered recorded ⊢
    have simulation := fun client => @Machine.told_simulation _ _ _ _ _ Nat _
      Pipeline.processLine client MapMachine.step
      (fun storage map => storage = PipelineStorage.memory ⟨map⟩) MapMachine.Answer.render
      (fun storage map line related => by
        rw [related, processLine_memory]
        exact ⟨rfl, rfl⟩)
      (.memory .empty) ∅ rfl system.executed
    refine ⟨fun worker member => ?_, ?_⟩
    · obtain ⟨index, thread⟩ := List.mem_iff_getElem?.1 member
      exact (answered index worker thread).trans (simulation worker.client).1
    · rw [show system.storage = _ from recorded.storage.trans (simulation 0).2]
      rfl
  · simp only [lifetime, returns]
    exact ⟨failed, rfl⟩

theorem forgets_without_log_set_get :
    Answers defaultServerOptions getLife ∅
      (lifetime defaultServerOptions (Machine.after (lifetime defaultServerOptions)
        (.holding none) [setLife]) getLife).1 :=
  (forgets_without_log (by decide) _ getLife).1

end AsterKV.Server
