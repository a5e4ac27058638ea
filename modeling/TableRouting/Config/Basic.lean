import TableRouting.Operation

/-!
# Configuration

The settings of a sink: where tables go and how they are written, how the store
is reached, and how the run is monitored. Unsigned settings are 64-bit words.
The defaults are those of settings that a configuration may leave out.
-/

namespace TableRouting

/-- What happens to a record that fails. -/
inductive OnRecordError where
  /-- The record is dropped. -/
  | discard
  /-- The record is kept as an error record. -/
  | toError
  /-- The batch fails. -/
  | stopPipeline
  deriving DecidableEq, Repr

/-- How much is logged. -/
inductive LogLevel where
  | trace
  | debug
  | info
  | warn
  | error
  deriving DecidableEq, Repr

inductive LogFormat where
  | json
  | text
  deriving DecidableEq, Repr

/-- A field of the record written to a column, with the expression that binds
its value. -/
structure FieldMapping where
  field : String
  column : String
  paramValue : String := "?"
  deriving DecidableEq, Repr

/-- Where and how records are written. -/
structure SinkConfig where
  schema : String := ""
  tableNameTemplate : String
  fieldMappings : List FieldMapping := []
  caseSensitive : Bool := false
  rollbackOnError : Bool := true
  useMultiRowOp : Bool := false
  /-- The most parameters that one statement binds; none is no limit. -/
  maxStatementParameters : Option UInt64 := none
  /-- The most statements that one writer keeps prepared; none is no limit. -/
  maxStatementCache : Option UInt64 := none
  changeLogFormat : ChangeLogFormat := .none
  defaultOperation : Operation := .insert
  unsupportedAction : UnsupportedAction := .sendToError
  onRecordError : OnRecordError := .toError
  deriving DecidableEq, Repr

structure ConnectionConfig where
  connectionString : String
  username : Option String := none
  password : Option String := none
  maxConnections : UInt64 := 10
  minIdle : UInt64 := 1
  connectionTimeoutMs : UInt64 := 30000
  idleTimeoutMs : UInt64 := 600000
  maxLifetimeMs : UInt64 := 1800000
  deriving DecidableEq, Repr

structure MonitoringConfig where
  logLevel : LogLevel := .info
  logFormat : LogFormat := .json
  deriving DecidableEq, Repr

structure Config where
  sink : SinkConfig
  connection : ConnectionConfig
  monitoring : MonitoringConfig := {}
  deriving DecidableEq, Repr

def LogLevel.filter : LogLevel → String
  | .trace => "trace"
  | .debug => "debug"
  | .info => "info"
  | .warn => "warn"
  | .error => "error"

end TableRouting
