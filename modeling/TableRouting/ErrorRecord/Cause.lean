import TableRouting.Record
import TableRouting.Store.Error
import TableRouting.Template.Error

/-!
# Causes of failed records

A record fails because no table name came out of it, because the writer of its
table could not be built, or because the store rejected it. Each kind has a stable
code; an operation that the store does not support has a code of its own.
-/

namespace TableRouting

/-- Why a record failed. -/
inductive FailureCause where
  | evaluation (error : EvaluationError)
  | construction (error : ConstructionError)
  | store (table : String) (error : StoreError)
  deriving DecidableEq, Repr

namespace FailureCause

def code : FailureCause → String
  | .evaluation _ => "TABSINK_01"
  | .construction _ => "TABSINK_02"
  | .store _ (.unsupportedOperation _) => "TABSINK_04"
  | .store _ _ => "TABSINK_03"

def table? : FailureCause → Option String
  | .evaluation _ => none
  | .construction error => some error.table
  | .store table _ => some table

def message : FailureCause → String
  | .evaluation error => error.message
  | .construction error => error.message
  | .store _ error => error.message

end FailureCause

/-- A record that failed, with the reason. -/
structure ErrorRecord where
  record : Record
  code : String
  message : String
  table : Option String
  /-- When the failure was routed, if the time of day is known. -/
  timestamp : Option String := none
  deriving Repr

namespace ErrorRecord

def ofCause (record : Record) (cause : FailureCause) (timestamp : Option String := none) :
    ErrorRecord where
  record := record
  code := cause.code
  message := cause.message
  table := cause.table?
  timestamp := timestamp

def toJson (error : ErrorRecord) : Json :=
  let timestamps := error.timestamp.toList.map fun timestamp => ("timestamp", .str timestamp)
  .obj ([("record", error.record.toJson), ("error_code", .str error.code),
    ("error_message", .str error.message),
    ("table", match error.table with
      | some table => .str table
      | none => .null)] ++ timestamps)

end ErrorRecord

end TableRouting
