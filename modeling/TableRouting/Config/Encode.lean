import TableRouting.Config.Basic

/-!
# Configurations as JSON

A configuration is written with every setting, in the order in which the settings
are declared. The values of an enumeration are written by name.
-/

namespace TableRouting

def UnsupportedAction.label : UnsupportedAction → String
  | .discard => "discard"
  | .sendToError => "send_to_error"
  | .useDefault => "use_default"

def ChangeLogFormat.label : ChangeLogFormat → String
  | .none => "none"
  | .msSql => "mssql"
  | .oracle => "oracle"
  | .mySqlBinLog => "mysql_binlog"
  | .mongoOpLog => "mongodb_oplog"

def OnRecordError.label : OnRecordError → String
  | .discard => "discard"
  | .toError => "to_error"
  | .stopPipeline => "stop_pipeline"

def LogFormat.label : LogFormat → String
  | .json => "json"
  | .text => "text"

/-- A setting that may be missing, as null if it is. -/
def optionJson {α : Type} (encode : α → Json) : Option α → Json
  | none => .null
  | some value => encode value

def wordJson (n : UInt64) : Json := .num (.ofUInt64 n)

def FieldMapping.toJson (mapping : FieldMapping) : Json :=
  .obj [("field", .str mapping.field), ("column", .str mapping.column),
    ("param_value", .str mapping.paramValue)]

def SinkConfig.toJson (config : SinkConfig) : Json :=
  .obj [
    ("schema", .str config.schema),
    ("table_name_template", .str config.tableNameTemplate),
    ("field_mappings", .arr (config.fieldMappings.map FieldMapping.toJson)),
    ("case_sensitive", .bool config.caseSensitive),
    ("rollback_on_error", .bool config.rollbackOnError),
    ("use_multi_row_op", .bool config.useMultiRowOp),
    ("max_prepared_statement_parameters", optionJson wordJson config.maxStatementParameters),
    ("max_prepared_statement_cache", optionJson wordJson config.maxStatementCache),
    ("change_log_format", .str config.changeLogFormat.label),
    ("default_operation", .str config.defaultOperation.label),
    ("unsupported_action", .str config.unsupportedAction.label),
    ("on_record_error", .str config.onRecordError.label)]

def ConnectionConfig.toJson (config : ConnectionConfig) : Json :=
  .obj [
    ("connection_string", .str config.connectionString),
    ("username", optionJson .str config.username),
    ("password", optionJson .str config.password),
    ("max_connections", wordJson config.maxConnections),
    ("min_idle", wordJson config.minIdle),
    ("connection_timeout_ms", wordJson config.connectionTimeoutMs),
    ("idle_timeout_ms", wordJson config.idleTimeoutMs),
    ("max_lifetime_ms", wordJson config.maxLifetimeMs)]

def MonitoringConfig.toJson (config : MonitoringConfig) : Json :=
  .obj [("log_level", .str config.logLevel.filter), ("log_format", .str config.logFormat.label)]

def Config.toJson (config : Config) : Json :=
  .obj [("sink", config.sink.toJson), ("connection", config.connection.toJson),
    ("monitoring", config.monitoring.toJson)]

end TableRouting
