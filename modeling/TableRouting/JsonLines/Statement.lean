import Std.Data.HashMap
import TableRouting.Config.Issue
import TableRouting.Json.Printer
import TableRouting.Store.Spec

/-!
# Prepared statements

A statement is an operation on a list of columns, with the expression that binds
each column. A writer keeps the statements that it has prepared in a bounded
queue and drops the one prepared longest ago. A line of a table file is one
execution of a statement for one or more rows.
-/

namespace TableRouting.JsonLines

/-- What tells statements of one writer apart. -/
structure StatementKey where
  op : Operation
  columns : List String
  deriving DecidableEq, Hashable, Repr

structure Statement where
  op : Operation
  columns : List String
  params : List String
  deriving DecidableEq, Repr

/-- The expression that binds each column: that of the first mapping to the
column, or a plain `?`. -/
def paramValues (spec : WriterSpec) (columns : List String) : List String :=
  columns.map fun column =>
    match spec.mappings.find? fun m => columnName spec.caseSensitive m.column = column with
    | some mapping => mapping.paramValue
    | none => "?"

/-- The statements that a writer keeps prepared, with the queue of their keys in
the order in which they were prepared. -/
structure StatementCache where
  /-- The most statements kept; none is no limit. -/
  capacity : Option Nat := none
  statements : Std.HashMap StatementKey Statement := {}
  queue : List StatementKey := []

namespace StatementCache

def size (cache : StatementCache) : Nat := cache.statements.size

/-- Drop the oldest statements until one more fits, at most as many as there are. -/
def makeRoom (capacity : Nat) (cache : StatementCache) : List StatementKey → StatementCache
  | [] => { cache with queue := [] }
  | oldest :: rest =>
    if capacity ≤ (oldest :: rest).length then
      makeRoom capacity { cache with statements := cache.statements.erase oldest } rest
    else { cache with queue := oldest :: rest }

/-- Prepare a statement, or find it prepared. -/
def prepare (cache : StatementCache) (key : StatementKey) (params : List String → List String) :
    Statement × StatementCache :=
  match cache.statements[key]? with
  | some statement => (statement, cache)
  | none =>
    let cache := match cache.capacity with
      | some capacity => makeRoom capacity cache cache.queue
      | none => cache
    let statement : Statement := ⟨key.op, key.columns, params key.columns⟩
    (statement,
      { cache with
        statements := cache.statements.insert key statement
        queue := cache.queue ++ [key] })

def clear (cache : StatementCache) : StatementCache :=
  { cache with statements := {}, queue := [] }

end StatementCache

structure TableLine where
  op : Operation
  schema : String
  table : String
  columns : List String
  params : List String
  rows : List (List Json)
  deriving Repr

namespace TableLine

def toJson (line : TableLine) : Json :=
  .obj [("op", .str line.op.label), ("schema", .str line.schema), ("table", .str line.table),
    ("columns", .arr (line.columns.map .str)), ("params", .arr (line.params.map .str)),
    ("rows", .arr (line.rows.map .arr))]

def render (line : TableLine) : String := line.toJson.render

end TableLine

end TableRouting.JsonLines
