/-
# AsterKV.Pipeline.LocalPipeline -- one command line, one response
-/
import AsterKV.Protocol.Parser
import AsterKV.Protocol.ResponseSerializer

namespace AsterKV.Pipeline

open AsterKV.Core AsterKV.Execution AsterKV.Protocol AsterKV.Storage

set_option autoImplicit false

variable {σ : Type} [StorageEngine σ]

def processLine (storage : σ) (line : Bytes) : Bytes × σ :=
  match parseCommandLine line with
  | .error failure => (serializeStatus failure.val, storage)
  | .ok commandRequest =>
      let (executionResult, storage) := dispatch storage commandRequest
      (serializeExecutionResult executionResult, storage)

theorem processLine_ne_nil (storage : σ) (line : Bytes) : (processLine storage line).1 ≠ [] := by
  unfold processLine
  split
  · exact serializeStatus_ne_nil _
  · exact serializeExecutionResult_ne_nil _

/-- A line the parser refuses is answered with its error and changes nothing. -/
theorem processLine_refused {storage : σ} {line : Bytes} {failure : Failure}
    (refused : parseCommandLine line = .error failure) :
    processLine storage line = (serializeStatus failure.val, storage) := by
  rw [processLine, refused]

/-- A pipeline as its users see it: it answers every line, and never with nothing.
Its state may be more than an engine, such as a shared engine together with what other
clients are going to do to it between two lines. -/
structure LinePipeline (σ : Type) where
  processLine : σ → Bytes → Bytes × σ
  answers : ∀ storage line, (processLine storage line).1 ≠ []

/-- `LocalPipeline` over an engine. -/
def localPipeline (σ : Type) [StorageEngine σ] : LinePipeline σ where
  processLine := processLine
  answers := processLine_ne_nil

end AsterKV.Pipeline
