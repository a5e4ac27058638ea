import TableRouting.Batch.Error
import TableRouting.Config.Basic
import TableRouting.ErrorRecord.Cause

/-!
# Routing failed records

A policy says what happens to a record that fails: it is dropped, kept as an error
record, or fails its batch. Kept records wait in a log, in the order in which they
were routed, until they are taken out.
-/

namespace TableRouting

/-- A policy with the error records kept under it. -/
structure ErrorLog where
  policy : OnRecordError := .toError
  records : Array ErrorRecord := #[]
  deriving Repr

namespace ErrorLog

/-- Route a failed record. An error turns the failure into that of the batch. -/
def route (log : ErrorLog) (record : Record) (cause : FailureCause)
    (timestamp : Option String := none) : Except WriteError Unit × ErrorLog :=
  match log.policy with
  | .discard => (.ok (), log)
  | .toError =>
    (.ok (), { log with records := log.records.push (.ofCause record cause timestamp) })
  | .stopPipeline => (.error (.stopPipeline record.id cause.message), log)

/-- A log without the times of its records. -/
def untimed (log : ErrorLog) : ErrorLog :=
  { log with records := log.records.map fun error => { error with timestamp := none } }

/-- The time of a failure decides nothing. -/
theorem route_timestamp (log : ErrorLog) (record : Record) (cause : FailureCause)
    (timestamp : Option String) :
    (log.route record cause timestamp).1 = (log.untimed.route record cause).1 ∧
      (log.route record cause timestamp).2.untimed = (log.untimed.route record cause).2 := by
  obtain ⟨policy, records⟩ := log
  cases policy with
  | discard => exact ⟨rfl, rfl⟩
  | toError => simp [route, untimed, ErrorRecord.ofCause]
  | stopPipeline => exact ⟨rfl, rfl⟩

def drain (log : ErrorLog) : List ErrorRecord × ErrorLog :=
  (log.records.toList, { log with records := #[] })

end ErrorLog

end TableRouting
