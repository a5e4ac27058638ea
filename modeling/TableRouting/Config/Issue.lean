import TableRouting.Config.Basic
import TableRouting.Text.Lowercase

/-!
# Configuration issues

Everything wrong with a configuration is found at once and reported in a fixed
order: the template, the two statement limits, each field mapping in turn, then
the connection. A mapping without a field or a column is reported for that alone
and takes no part in the search for columns mapped twice.
-/

namespace TableRouting

/-- A problem of one setting. -/
structure ConfigIssue where
  group : String
  setting : String
  message : String
  deriving DecidableEq, Repr

def ConfigIssue.text : ConfigIssue → String
  | ⟨group, setting, message⟩ => s!"{group}.{setting}: {message}"

def ConfigIssue.listText (issues : List ConfigIssue) : String :=
  "; ".intercalate (issues.map text)

/-- A column name as the store knows it. -/
def columnName (caseSensitive : Bool) (name : String) : String :=
  if caseSensitive then name else Text.lower name

namespace SinkConfig

/-- The issues of field mappings, given the columns mapped so far. -/
def mappingIssues (caseSensitive : Bool) (seen : List String) : List FieldMapping → List ConfigIssue
  | [] => []
  | mapping :: rest =>
    if mapping.field.isEmpty ∨ mapping.column.isEmpty then
      ⟨"sink", "field_mappings", "Field and column must both be set"⟩ ::
        mappingIssues caseSensitive seen rest
    else
      let shown := mapping.column
      let column := columnName caseSensitive mapping.column
      let unbound :=
        if mapping.paramValue.toList.contains '?' then []
        else [⟨"sink", "field_mappings",
          s!"Parameter expression for column '{shown}' must contain '?'"⟩]
      let repeated :=
        if seen.contains column then
          [⟨"sink", "field_mappings", s!"Column '{shown}' is mapped more than once"⟩]
        else []
      unbound ++ repeated ++ mappingIssues caseSensitive (column :: seen) rest

def issues (config : SinkConfig) : List ConfigIssue :=
  (if Text.isBlankText config.tableNameTemplate then
    [⟨"sink", "table_name_template", "Table name template is required"⟩] else []) ++
  (if config.maxStatementParameters = some 0 then
    [⟨"sink", "max_prepared_statement_parameters", "Must be greater than zero when set"⟩]
    else []) ++
  (if config.maxStatementCache = some 0 then
    [⟨"sink", "max_prepared_statement_cache", "Must be greater than zero when set"⟩] else []) ++
  mappingIssues config.caseSensitive [] config.fieldMappings

end SinkConfig

def ConnectionConfig.issues (config : ConnectionConfig) : List ConfigIssue :=
  (if Text.isBlankText config.connectionString then
    [⟨"connection", "connection_string", "Connection string is required"⟩] else []) ++
  (if config.maxConnections = 0 then
    [⟨"connection", "max_connections", "At least one connection required"⟩] else []) ++
  (if 0 < config.maxConnections ∧ config.maxConnections < config.minIdle then
    [⟨"connection", "min_idle", "Must not exceed max_connections"⟩] else [])

def Config.issues (config : Config) : List ConfigIssue :=
  config.sink.issues ++ config.connection.issues

end TableRouting
