import TableRouting.JsonLines.Connection
import TableRouting.JsonLines.Row
import TableRouting.JsonLines.Statement

/-!
# Table writers

The writer of a table turns records into lines on a connection. In single-row mode
each row is a line. In multi-row mode the rows are cut into chunks that bind no
more parameters than the limit; a chunk with a failed record is rejected as a
whole, and any other chunk becomes one line per operation and list of columns.
-/

namespace TableRouting.JsonLines

/-- The writer of one table. -/
structure TableWriter where
  table : String
  spec : WriterSpec
  statements : StatementCache := {}
  closed : Bool := false

/-- The statement that a row is an execution of. -/
def Row.key (row : Row) : StatementKey := ⟨row.op, row.columns⟩

namespace TableWriter

def create (table : String) (spec : WriterSpec) : Except ConstructionError TableWriter :=
  match nameFault? table with
  | some fault => .error ⟨table, fault.message⟩
  | none =>
    match if spec.schema.isEmpty then none else nameFault? spec.schema with
    | some fault => .error ⟨table, "schema " ++ fault.message⟩
    | none => .ok { table, spec, statements := { capacity := spec.maxStatementCache } }

def file (writer : TableWriter) : TableFile := ⟨writer.spec.schema, writer.table⟩

/-- Release the writer. Doing so again changes nothing. -/
def close (writer : TableWriter) : TableWriter :=
  if writer.closed then writer
  else { writer with statements := writer.statements.clear, closed := true }

/-- What a record gives: a row, nothing, or a failure. -/
abbrev Extracted := Except StoreError (Option Row)

/-- Issue one statement for rows that share its operation and columns. -/
def issue (writer : TableWriter) (connection : Connection) (key : StatementKey)
    (rows : List (List Json)) : TableWriter × Connection :=
  let (statement, statements) := writer.statements.prepare key (paramValues writer.spec)
  let line : TableLine :=
    { op := statement.op
      schema := writer.spec.schema
      table := writer.table
      columns := statement.columns
      params := statement.params
      rows }
  ({ writer with statements }, connection.append writer.file line.render)

def issueAll (writer : TableWriter) (connection : Connection) :
    List (StatementKey × List (List Json)) → TableWriter × Connection
  | [] => (writer, connection)
  | (key, rows) :: rest =>
    let (writer, connection) := writer.issue connection key rows
    issueAll writer connection rest

def rowsOf (extracted : List Extracted) : List Row :=
  extracted.filterMap fun
    | .ok row => row
    | .error _ => none

def droppedCount (extracted : List Extracted) : Nat :=
  extracted.countP fun
    | .ok none => true
    | _ => false

def failuresFrom (index : Nat) : List Extracted → List RecordFailure
  | [] => []
  | .ok _ :: rest => failuresFrom (index + 1) rest
  | .error error :: rest => ⟨index, error⟩ :: failuresFrom (index + 1) rest

/-- Write every row as a statement of its own. -/
def writeSingle (writer : TableWriter) (connection : Connection) (extracted : List Extracted) :
    WriteReport × TableWriter × Connection :=
  let rows := rowsOf extracted
  let report : WriteReport :=
    { written := rows.length
      discarded := droppedCount extracted
      failures := failuresFrom 0 extracted }
  (report, writer.issueAll connection (rows.map fun row => (row.key, [row.values])))

/-- What a chunk holds for each record: its index, and its row or its failure. -/
abbrev ChunkItem := Nat × Except StoreError Row

/-- The records that chunks are made of: those that are not dropped. -/
def keptItems (index : Nat) : List Extracted → List ChunkItem
  | [] => []
  | .ok none :: rest => keptItems (index + 1) rest
  | .ok (some row) :: rest => (index, .ok row) :: keptItems (index + 1) rest
  | .error e :: rest => (index, .error e) :: keptItems (index + 1) rest

/-- The parameters that a record takes up in a chunk. A failed record counts as
one mapped row, and nothing counts as less than one. -/
def itemWidth (spec : WriterSpec) (item : ChunkItem) : Nat :=
  match item.2 with
  | .ok row => max row.values.length 1
  | .error _ => max spec.mappings.length 1

/-- Cut items into chunks, given the current chunk, last item first, and the
parameters bound in it. An item that the chunk does not admit begins the next. -/
def cutChunks (spec : WriterSpec) (chunk : List ChunkItem) (bound : Nat) :
    List ChunkItem → List (List ChunkItem)
  | [] => if chunk.isEmpty then [] else [chunk.reverse]
  | item :: rest =>
    let width := itemWidth spec item
    if spec.mode.admits bound width then cutChunks spec (item :: chunk) (bound + width) rest
    else chunk.reverse :: cutChunks spec [item] width rest

/-- The statements for rows, in the order in which their kinds first appear. -/
def statementsOf (rows : List Row) : List (StatementKey × List (List Json)) :=
  Grouping.group (rows.map fun row => (row.key, row.values))

/-- The index of the first failed item of a chunk. -/
def firstFailed? (chunk : List ChunkItem) : Option Nat :=
  chunk.findSome? fun
    | (index, .error _) => some index
    | _ => none

/-- The failures of a chunk: none, or one for each item, because a failed record
takes the others of its chunk with it. -/
def chunkFailures (chunk : List ChunkItem) : List RecordFailure :=
  match firstFailed? chunk with
  | none => []
  | some failed =>
    chunk.map fun
      | (index, .error e) => ⟨index, e⟩
      | (index, .ok _) =>
        ⟨index, .statement s!"Multi-row statement rejected because record {failed} failed"⟩

def chunkRows (chunk : List ChunkItem) : List Row :=
  chunk.filterMap fun
    | (_, .ok row) => some row
    | _ => none

/-- Write the chunks without failures, each as one statement per kind of row. -/
def writeMulti (writer : TableWriter) (connection : Connection) (extracted : List Extracted) :
    WriteReport × TableWriter × Connection :=
  let chunks := cutChunks writer.spec [] 0 (keptItems 0 extracted)
  let clean := chunks.filter fun chunk => (firstFailed? chunk).isNone
  let report : WriteReport :=
    { written := (clean.map List.length).foldr (· + ·) 0
      discarded := droppedCount extracted
      failures := chunks.flatMap chunkFailures }
  (report, writer.issueAll connection (clean.flatMap fun chunk => statementsOf (chunkRows chunk)))

def writeOpen (writer : TableWriter) (connection : Connection) (records : List Record) :
    WriteReport × TableWriter × Connection :=
  let extracted := records.map (Row.ofRecord writer.spec)
  match writer.spec.mode with
  | .singleRow => writer.writeSingle connection extracted
  | .multiRow _ => writer.writeMulti connection extracted

def write (writer : TableWriter) (connection : Connection) (records : List Record) :
    Except StoreError WriteReport × TableWriter × Connection :=
  if writer.closed then (.error (.writerClosed writer.table), writer, connection)
  else
    let (report, writer, connection) := writer.writeOpen connection records
    (.ok report, writer, connection)

end TableWriter

end TableRouting.JsonLines
