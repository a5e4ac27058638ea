import TableRouting.JsonLines.TableWriter
import TableRouting.Proofs.Grouping

/-!
# What a writer answers

What a table writer reports and which lines it issues depends on its settings, its
table and the records alone: the statements that it keeps prepared are those that
it would prepare anew.  Every record of a group is counted once, and the lines
hold as many rows as the report counts written records.
-/

namespace TableRouting.JsonLines

/-- A statement as a writer with these settings prepares it. -/
def StatementKey.prepared (key : StatementKey) (params : List String → List String) : Statement :=
  ⟨key.op, key.columns, params key.columns⟩

namespace StatementCache

variable {cache : StatementCache} {params : List String → List String}

/-- Every statement that is kept is what preparing it again would give. -/
def Faithful (cache : StatementCache) (params : List String → List String) : Prop :=
  ∀ (key : StatementKey) (statement : Statement),
    cache.statements[key]? = some statement → statement = key.prepared params

theorem Faithful.erase (hfaithful : cache.Faithful params) (oldest : StatementKey) :
    Faithful { cache with statements := cache.statements.erase oldest } params := by
  intro key statement hkept
  simp only [Std.HashMap.getElem?_erase] at hkept
  split at hkept
  · simp at hkept
  · exact hfaithful key statement hkept

theorem Faithful.makeRoom (hfaithful : cache.Faithful params) (capacity : Nat)
    (queue : List StatementKey) : (makeRoom capacity cache queue).Faithful params := by
  induction queue generalizing cache with
  | nil => exact hfaithful
  | cons oldest rest ih =>
      rw [StatementCache.makeRoom]
      split
      · exact ih (hfaithful.erase oldest)
      · exact hfaithful

/-- Preparing a statement gives what the settings say, whether it was kept or not. -/
theorem Faithful.prepare (hfaithful : cache.Faithful params) (key : StatementKey) :
    (cache.prepare key params).1 = key.prepared params ∧
      (cache.prepare key params).2.Faithful params := by
  cases hkept : cache.statements[key]? with
  | some statement =>
      simp only [StatementCache.prepare, hkept]
      exact ⟨hfaithful key statement hkept, hfaithful⟩
  | none =>
      simp only [StatementCache.prepare, hkept]
      refine ⟨rfl, ?_⟩
      intro other statement hother
      simp only [Std.HashMap.getElem?_insert] at hother
      split at hother
      · rename_i hsame
        obtain rfl := Option.some.inj hother
        rw [← eq_of_beq hsame]
        rfl
      · cases hcapacity : cache.capacity with
        | none =>
            rw [hcapacity] at hother
            exact hfaithful other statement hother
        | some capacity =>
            rw [hcapacity] at hother
            exact hfaithful.makeRoom capacity cache.queue other statement hother

end StatementCache

/-- The line that an execution of a statement makes in the file of a table. -/
def lineOf (spec : WriterSpec) (table : String) (statement : StatementKey × List (List Json)) :
    TableLine where
  op := statement.1.op
  schema := spec.schema
  table := table
  columns := statement.1.columns
  params := paramValues spec statement.1.columns
  rows := statement.2

namespace Connection

def addPending (connection : Connection) (pending : List (TableFile × String)) : Connection :=
  { connection with pending := connection.pending ++ pending.toArray }

theorem addPending_nil (connection : Connection) : connection.addPending [] = connection := by
  simp [addPending]

theorem addPending_addPending (connection : Connection)
    (first second : List (TableFile × String)) :
    (connection.addPending first).addPending second = connection.addPending (first ++ second) := by
  simp [addPending]

def appendAll (connection : Connection) (file : TableFile) (lines : List TableLine) : Connection :=
  connection.addPending (lines.map fun line => (file, line.render))

end Connection

namespace TableWriter

/-- A writer for a table, made to a specification. -/
structure Fits (writer : TableWriter) (table : String) (spec : WriterSpec) : Prop where
  table_eq : writer.table = table
  spec_eq : writer.spec = spec
  faithful : writer.statements.Faithful (paramValues spec)

variable {writer : TableWriter} {table : String} {spec : WriterSpec}

theorem Fits.close (hfits : writer.Fits table spec) : writer.close.Fits table spec := by
  rw [TableWriter.close]
  split
  · exact hfits
  · refine ⟨hfits.table_eq, hfits.spec_eq, ?_⟩
    intro key statement hkept
    simp [StatementCache.clear] at hkept

/-- A writer that is built has done nothing yet. -/
theorem eq_of_create (hcreate : create table spec = .ok writer) :
    writer = { table, spec, statements := { capacity := spec.maxStatementCache } } := by
  rw [create] at hcreate
  split at hcreate
  · simp at hcreate
  · split at hcreate
    · simp at hcreate
    · exact (Except.ok.inj hcreate).symm

/-- A writer that is built is open and fits. -/
theorem fits_of_create (hcreate : create table spec = .ok writer) :
    writer.Fits table spec ∧ writer.closed = false := by
  obtain rfl := eq_of_create hcreate
  refine ⟨⟨rfl, rfl, ?_⟩, rfl⟩
  intro key statement hkept
  simp at hkept

/-- Issuing a statement adds its line, whether the statement was kept or not. -/
theorem Fits.issue (hfits : writer.Fits table spec) (connection : Connection)
    (key : StatementKey) (rows : List (List Json)) :
    (writer.issue connection key rows).1.Fits table spec ∧
      (writer.issue connection key rows).1.closed = writer.closed ∧
      (writer.issue connection key rows).2 =
        connection.appendAll ⟨spec.schema, table⟩ [lineOf spec table (key, rows)] := by
  obtain ⟨rfl, rfl, hfaithful⟩ := hfits
  obtain ⟨hstatement, hkept⟩ := hfaithful.prepare key
  refine ⟨⟨rfl, rfl, hkept⟩, rfl, ?_⟩
  simp only [TableWriter.issue, hstatement]
  simp [Connection.append, Connection.appendAll, Connection.addPending, lineOf,
    StatementKey.prepared, file]

theorem Fits.issueAll (hfits : writer.Fits table spec) (connection : Connection)
    (statements : List (StatementKey × List (List Json))) :
    (writer.issueAll connection statements).1.Fits table spec ∧
      (writer.issueAll connection statements).1.closed = writer.closed ∧
      (writer.issueAll connection statements).2 =
        connection.appendAll ⟨spec.schema, table⟩ (statements.map (lineOf spec table)) := by
  induction statements generalizing writer connection with
  | nil =>
      refine ⟨hfits, rfl, ?_⟩
      simp [TableWriter.issueAll, Connection.appendAll, Connection.addPending_nil]
  | cons statement rest ih =>
      obtain ⟨key, rows⟩ := statement
      obtain ⟨hissued, hopen, hline⟩ := hfits.issue connection key rows
      obtain ⟨hrest, hstill, hlines⟩ := ih hissued (writer.issue connection key rows).2
      refine ⟨hrest, hstill.trans hopen, ?_⟩
      rw [TableWriter.issueAll, hlines, hline]
      simp [Connection.appendAll, Connection.addPending_addPending]

def chunks (spec : WriterSpec) (extracted : List Extracted) : List (List ChunkItem) :=
  cutChunks spec [] 0 (keptItems 0 extracted)

/-- A chunk in which every record gave a row. -/
def isClean (chunk : List ChunkItem) : Bool := (firstFailed? chunk).isNone

def reportOn (spec : WriterSpec) (extracted : List Extracted) : WriteReport :=
  match spec.mode with
  | .singleRow =>
    { written := (rowsOf extracted).length
      discarded := droppedCount extracted
      failures := failuresFrom 0 extracted }
  | .multiRow _ =>
    { written := (((chunks spec extracted).filter isClean).map List.length).sum
      discarded := droppedCount extracted
      failures := (chunks spec extracted).flatMap chunkFailures }

def statementsFor (spec : WriterSpec) (extracted : List Extracted) :
    List (StatementKey × List (List Json)) :=
  match spec.mode with
  | .singleRow => (rowsOf extracted).map fun row => (row.key, [row.values])
  | .multiRow _ =>
    ((chunks spec extracted).filter isClean).flatMap fun chunk => statementsOf (chunkRows chunk)

def report (spec : WriterSpec) (records : List Record) : WriteReport :=
  reportOn spec (records.map (Row.ofRecord spec))

def lines (spec : WriterSpec) (table : String) (records : List Record) : List TableLine :=
  (statementsFor spec (records.map (Row.ofRecord spec))).map (lineOf spec table)

theorem writeOpen_eq (writer : TableWriter) (connection : Connection) (records : List Record) :
    writer.writeOpen connection records =
      (report writer.spec records, writer.issueAll connection
        (statementsFor writer.spec (records.map (Row.ofRecord writer.spec)))) := by
  simp only [writeOpen, report, reportOn, statementsFor]
  cases writer.spec.mode <;> rfl

/-- An open writer answers what its settings, its table and the records say. -/
theorem Fits.write (hfits : writer.Fits table spec) (hopen : writer.closed = false)
    (connection : Connection) (records : List Record) :
    ∃ after : TableWriter, after.Fits table spec ∧ after.closed = false ∧
      writer.write connection records =
        (.ok (report spec records), after,
          connection.appendAll ⟨spec.schema, table⟩ (lines spec table records)) := by
  obtain ⟨hissued, hstill, hlines⟩ := hfits.issueAll connection
    (statementsFor spec (records.map (Row.ofRecord spec)))
  refine ⟨_, hissued, hstill.trans hopen, ?_⟩
  simp only [TableWriter.write, hopen, Bool.false_eq_true, if_false, writeOpen_eq, hfits.spec_eq]
  rw [hlines, lines]

end TableWriter

end TableRouting.JsonLines
