import TableRouting.Config.Encode

/-!
# Reading configurations

A structure is given as an object, in which unknown keys are ignored, or as an
array of its fields in order. A field that has a default may be left out; one that
is given must have the right type. The value of an enumeration is given by name,
or as an object whose only key is the name.

Two notations share this reader and differ in small things, which `Reading`
records.
-/

namespace TableRouting.Config

/-- What a notation admits beyond the common rules. -/
structure Reading where
  /-- An array given for a structure may hold more items than it has fields. -/
  surplusItems : Bool
  /-- What may stand beside the name when the value of an enumeration is given as
  an object. -/
  emptyVariant : Json → Bool

/-- The rules for JSON: no surplus items, and null beside the name of a variant. -/
def Reading.json : Reading where
  surplusItems := false
  emptyVariant
    | .null => true
    | _ => false

/-- The rules for TOML: surplus items are ignored, and an empty table or array
stands beside the name of a variant. -/
def Reading.toml : Reading where
  surplusItems := true
  emptyVariant
    | .arr [] => true
    | .obj [] => true
    | _ => false

/-- What is given for the fields of a structure. -/
inductive Given where
  | byName (fields : List (String × Json))
  | byPosition (items : List Json)

/-- Take a value apart as a structure of `count` fields. -/
def given? (reading : Reading) (count : Nat) : Json → Option Given
  | .obj fields => some (.byName fields)
  | .arr items =>
    if count < items.length ∧ !reading.surplusItems then none else some (.byPosition items)
  | _ => none

def Given.field? (given : Given) (position : Nat) (name : String) : Option Json :=
  match given with
  | .byName fields => Json.lookup? name fields
  | .byPosition items => items[position]?

def Given.required {α : Type} (given : Given) (position : Nat) (name : String)
    (decode : Json → Option α) : Option α :=
  (given.field? position name).bind decode

def Given.optional {α : Type} (given : Given) (position : Nat) (name : String)
    (decode : Json → Option α) (default : α) : Option α :=
  match given.field? position name with
  | some value => decode value
  | none => some default

/-- A value that may be null. -/
def nullable {α : Type} (decode : Json → Option α) : Json → Option (Option α)
  | .null => some none
  | value => (decode value).map some

/-- An unsigned 64-bit integer. -/
def word? : Json → Option UInt64
  | .num n => n.toUInt64?
  | _ => none

def variant? {α : Type} (reading : Reading) (ofLabel : String → Option α) : Json → Option α
  | .str label => ofLabel label
  | .obj [(label, beside)] => if reading.emptyVariant beside then ofLabel label else none
  | _ => none

def byLabel {α : Type} (label : α → String) (members : List α) (text : String) : Option α :=
  members.find? fun member => label member = text

def operation? (reading : Reading) : Json → Option Operation :=
  variant? reading (byLabel Operation.label [.insert, .update, .delete, .upsert])

def unsupportedAction? (reading : Reading) : Json → Option UnsupportedAction :=
  variant? reading (byLabel UnsupportedAction.label [.discard, .sendToError, .useDefault])

def changeLogFormat? (reading : Reading) : Json → Option ChangeLogFormat :=
  variant? reading
    (byLabel ChangeLogFormat.label [.none, .msSql, .oracle, .mySqlBinLog, .mongoOpLog])

def onRecordError? (reading : Reading) : Json → Option OnRecordError :=
  variant? reading (byLabel OnRecordError.label [.discard, .toError, .stopPipeline])

def logLevel? (reading : Reading) : Json → Option LogLevel :=
  variant? reading (byLabel LogLevel.filter [.trace, .debug, .info, .warn, .error])

def logFormat? (reading : Reading) : Json → Option LogFormat :=
  variant? reading (byLabel LogFormat.label [.json, .text])

def fieldMapping? (reading : Reading) (value : Json) : Option FieldMapping := do
  let given ← given? reading 3 value
  let field ← given.required 0 "field" Json.string?
  let column ← given.required 1 "column" Json.string?
  let paramValue ← given.optional 2 "param_value" Json.string? "?"
  pure ⟨field, column, paramValue⟩

def fieldMappings? (reading : Reading) (value : Json) : Option (List FieldMapping) :=
  value.array?.bind (·.mapM (fieldMapping? reading))

def sink? (reading : Reading) (value : Json) : Option SinkConfig := do
  let given ← given? reading 12 value
  let schema ← given.optional 0 "schema" Json.string? ""
  let tableNameTemplate ← given.required 1 "table_name_template" Json.string?
  let fieldMappings ← given.optional 2 "field_mappings" (fieldMappings? reading) []
  let caseSensitive ← given.optional 3 "case_sensitive" Json.bool? false
  let rollbackOnError ← given.optional 4 "rollback_on_error" Json.bool? true
  let useMultiRowOp ← given.optional 5 "use_multi_row_op" Json.bool? false
  let maxStatementParameters ←
    given.optional 6 "max_prepared_statement_parameters" (nullable word?) none
  let maxStatementCache ← given.optional 7 "max_prepared_statement_cache" (nullable word?) none
  let changeLogFormat ← given.optional 8 "change_log_format" (changeLogFormat? reading) .none
  let defaultOperation ← given.optional 9 "default_operation" (operation? reading) .insert
  let unsupportedAction ←
    given.optional 10 "unsupported_action" (unsupportedAction? reading) .sendToError
  let onRecordError ← given.optional 11 "on_record_error" (onRecordError? reading) .toError
  pure {
    schema, tableNameTemplate, fieldMappings, caseSensitive, rollbackOnError, useMultiRowOp,
    maxStatementParameters, maxStatementCache, changeLogFormat, defaultOperation,
    unsupportedAction, onRecordError }

def connection? (reading : Reading) (value : Json) : Option ConnectionConfig := do
  let given ← given? reading 8 value
  let connectionString ← given.required 0 "connection_string" Json.string?
  let username ← given.optional 1 "username" (nullable Json.string?) none
  let password ← given.optional 2 "password" (nullable Json.string?) none
  let maxConnections ← given.optional 3 "max_connections" word? 10
  let minIdle ← given.optional 4 "min_idle" word? 1
  let connectionTimeoutMs ← given.optional 5 "connection_timeout_ms" word? 30000
  let idleTimeoutMs ← given.optional 6 "idle_timeout_ms" word? 600000
  let maxLifetimeMs ← given.optional 7 "max_lifetime_ms" word? 1800000
  pure {
    connectionString, username, password, maxConnections, minIdle, connectionTimeoutMs,
    idleTimeoutMs, maxLifetimeMs }

def monitoring? (reading : Reading) (value : Json) : Option MonitoringConfig := do
  let given ← given? reading 2 value
  let logLevel ← given.optional 0 "log_level" (logLevel? reading) .info
  let logFormat ← given.optional 1 "log_format" (logFormat? reading) .json
  pure { logLevel, logFormat }

def ofValue? (reading : Reading) (value : Json) : Option Config := do
  let given ← given? reading 3 value
  let sink ← given.required 0 "sink" (sink? reading)
  let connection ← given.required 1 "connection" (connection? reading)
  let monitoring ← given.optional 2 "monitoring" (monitoring? reading) {}
  pure { sink, connection, monitoring }

def ofJson? : Json → Option Config := ofValue? .json

end TableRouting.Config
