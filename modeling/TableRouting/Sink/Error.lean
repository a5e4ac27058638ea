import TableRouting.Batch.Error
import TableRouting.Config.Issue

/-!
# Failures of sinks

What a caller of a sink gets to see: problems found while it opens, batches that
were rolled back, and calls after it was closed. Failures of the outside world,
such as files that cannot be read, carry a text of their own.
-/

namespace TableRouting

/-- A failure of a sink or of the files around it. -/
inductive SinkError where
  | config (detail : String)
  | invalidConfig (issues : List ConfigIssue)
  | write (source : WriteError)
  | io (detail : String)
  | serialization (detail : String)
  | closed
  deriving DecidableEq, Repr

namespace SinkError

def message : SinkError → String
  | .config detail => s!"Configuration error: {detail}"
  | .invalidConfig issues =>
    let detail := ConfigIssue.listText issues
    s!"Invalid configuration: {detail}"
  | .write source =>
    let detail := source.message
    s!"Write error: {detail}"
  | .io detail => s!"IO error: {detail}"
  | .serialization detail => s!"Serialization error: {detail}"
  | .closed => "Sink is closed"

/-- Whether a batch was rolled back, as opposed to not being started. -/
def isFatalBatch : SinkError → Bool
  | .write _ => true
  | _ => false

end SinkError

end TableRouting
