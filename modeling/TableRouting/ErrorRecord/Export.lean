import TableRouting.ErrorRecord.Log
import TableRouting.Json.Printer
import TableRouting.Sink.Error

/-!
# Exporting error records

Error records are exported as lines of JSON. They are taken out of the log first
and then written one by one to an output, which may refuse at any point; what an
output has taken before it refuses is its own affair.
-/

namespace TableRouting

/-- A place to write text to. Each operation tells whether it succeeded. -/
structure Output (m : Type → Type) where
  put : String → m Bool
  flush : m Bool

namespace ErrorLog

def writeLines {m : Type → Type} [Monad m] (output : Output m) :
    List ErrorRecord → m (Except SinkError Unit)
  | [] => pure (.ok ())
  | record :: rest => do
    if ← output.put record.toJson.render then
      if ← output.put "\n" then writeLines output rest
      else pure (.error (.io "error records"))
    else pure (.error (.serialization "error records"))

/-- Export every error record. Returns how many were written, and the log
without them. -/
def writeNdjson {m : Type → Type} [Monad m] (output : Output m) (log : ErrorLog) :
    m (Except SinkError Nat × ErrorLog) := do
  let (records, log) := log.drain
  match ← writeLines output records with
  | .error e => pure (.error e, log)
  | .ok () =>
    if ← output.flush then pure (.ok records.length, log)
    else pure (.error (.io "error records"), log)

end ErrorLog

end TableRouting
