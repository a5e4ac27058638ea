import TableRouting.Config.Basic

/-!
# Writer settings and reports

What a store is told when it builds the writer of a table, and what a writer
answers when it has written a group of records.
-/

namespace TableRouting

/-- The shape of the statements that a writer issues. -/
inductive WriteMode where
  /-- One row per statement. -/
  | singleRow
  /-- As many rows per statement as the limit on bound parameters allows; none is
  no limit. -/
  | multiRow (maxParameters : Option Nat)
  deriving DecidableEq, Repr

/-- Whether a statement that binds `bound` parameters may take a row that binds
`row` more. An empty statement takes any row, so that a row wider than the limit
is still written. -/
def WriteMode.admits (mode : WriteMode) (bound row : Nat) : Bool :=
  match mode with
  | .singleRow => bound == 0
  | .multiRow none => true
  | .multiRow (some limit) => bound == 0 || bound + row ≤ limit

/-- What every writer of a sink has in common. -/
structure WriterSpec where
  schema : String
  mappings : List FieldMapping
  mode : WriteMode
  changeLogFormat : ChangeLogFormat
  defaultOperation : Operation
  unsupportedAction : UnsupportedAction
  caseSensitive : Bool
  /-- The most prepared statements per writer; none is no limit. -/
  maxStatementCache : Option Nat
  deriving DecidableEq, Repr

def WriteMode.ofConfig (config : SinkConfig) : WriteMode :=
  if config.useMultiRowOp then .multiRow (config.maxStatementParameters.map UInt64.toNat)
  else .singleRow

def WriterSpec.ofConfig (config : SinkConfig) : WriterSpec where
  schema := config.schema
  mappings := config.fieldMappings
  mode := .ofConfig config
  changeLogFormat := config.changeLogFormat
  defaultOperation := config.defaultOperation
  unsupportedAction := config.unsupportedAction
  caseSensitive := config.caseSensitive
  maxStatementCache := config.maxStatementCache.map UInt64.toNat

/-- A record that a writer rejected, by its position in the group. -/
structure RecordFailure where
  index : Nat
  error : StoreError
  deriving DecidableEq, Repr

/-- What became of a group of records. -/
structure WriteReport where
  written : Nat := 0
  discarded : Nat := 0
  failures : List RecordFailure := []
  deriving DecidableEq, Repr

def WriteReport.isClean (report : WriteReport) : Bool := report.failures.isEmpty

end TableRouting
