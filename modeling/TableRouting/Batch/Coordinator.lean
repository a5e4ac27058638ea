import TableRouting.Batch.Error
import TableRouting.Batch.Outcome
import TableRouting.Cache.Cleaner
import TableRouting.ErrorRecord.Cause
import TableRouting.Grouping
import TableRouting.Metrics.Basic
import TableRouting.Store.Basic

/-!
# Writing batches

A batch is split into groups, one per table, in the order in which the tables
first appear. Each group is written through the cached writer of its table, and
the whole batch is committed on one connection. With rollback on error, any
failure rolls the batch back and fails it; without, failures are routed record by
record and the batch carries on, with the rows of a failed group cut off at the
savepoint taken before it.

An empty batch writes nothing and gives the cleaner a chance to run.
-/

namespace TableRouting

/-- The parts that a batch is written with. -/
structure Coordinator (m : Type → Type) (κ ω : Type) where
  resolve : Record → Except EvaluationError String
  store : Store m κ ω
  /-- Take a failed record. An error fails the batch. -/
  route : Record → FailureCause → m (Except WriteError Unit)
  rollbackOnError : Bool

/-- The counters that batches change. -/
structure Books where
  metrics : Metrics := {}
  cleaner : Cleaner

abbrev Group := String × List Record

namespace Coordinator

/-- The records of each table, with the tables in the order in which they first
appear. -/
def groupByTable (resolved : List (String × Record)) : List Group :=
  Grouping.group resolved

/-- Computations on an open connection that may fail the batch. What happened to
the connection before a failure stays. -/
abbrev Writing (m : Type → Type) (κ ω : Type) :=
  ExceptT WriteError (StateT κ (CacheT ω m))

variable {m : Type → Type} [Monad m] {κ ω : Type} (coordinator : Coordinator m κ ω)

def resolved (batch : List Record) : List (String × Record) :=
  batch.filterMap fun record =>
    match coordinator.resolve record with
    | .ok table => some (table, record)
    | .error _ => none

def unresolved (batch : List Record) : List (Record × EvaluationError) :=
  batch.filterMap fun record =>
    match coordinator.resolve record with
    | .ok _ => none
    | .error e => some (record, e)

def routeUnresolved : List (Record × EvaluationError) → m (Except WriteError Unit)
  | [] => pure (.ok ())
  | (record, e) :: rest => do
    match ← coordinator.route record (.evaluation e) with
    | .error e => pure (.error e)
    | .ok () => routeUnresolved rest

/-- Split a batch into groups. Records without a table are routed; their number is
returned with the groups. -/
def group (batch : List Record) : m (Except WriteError (List Group × Nat)) := do
  let unresolved := coordinator.unresolved batch
  match ← coordinator.routeUnresolved unresolved with
  | .error e => pure (.error e)
  | .ok () => pure (.ok (groupByTable (coordinator.resolved batch), unresolved.length))

def routeAll (cause : FailureCause) : List Record → m (Except WriteError Unit)
  | [] => pure (.ok ())
  | record :: rest => do
    match ← coordinator.route record cause with
    | .error e => pure (.error e)
    | .ok () => routeAll cause rest

/-- Route the records that a report names. Returns how many there were; an index
outside the group names none. -/
def routeFailures (table : String) (records : List Record) (errored : Nat) :
    List RecordFailure → m (Except WriteError Nat)
  | [] => pure (.ok errored)
  | failure :: rest => do
    match records[failure.index]? with
    | none => routeFailures table records errored rest
    | some record =>
      match ← coordinator.route record (.store table failure.error) with
      | .error e => pure (.error e)
      | .ok () => routeFailures table records (errored + 1) rest

def onConnection {α : Type} (f : κ → m (α × κ)) : StateT κ (CacheT ω m) α :=
  fun connection => liftM (f connection)

/-- What a writer answered, with the connection after it. -/
abbrev Written (κ : Type) := Except StoreError WriteReport × κ

def useWriter (records : List Record) (connection : κ) (writer : ω) :
    CacheT ω m (Written κ × ω) := do
  let (result, writer, connection) ← liftM (coordinator.store.write writer records connection)
  pure ((result, connection), writer)

/-- How an attempt to write a group ended. -/
inductive Attempt where
  /-- There was no writer. -/
  | unavailable (reason : Unavailable)
  /-- The writer had been released and refused. -/
  | refused (error : StoreError)
  | answered (answer : Except StoreError WriteReport)

def writeOnce (table : String) (records : List Record) : StateT κ (CacheT ω m) Attempt :=
  fun connection => do
  match ← coordinator.store.get table with
  | .error reason => pure (.unavailable reason, connection)
  | .ok handle =>
    match ← Workshop.withWriter handle (coordinator.useWriter records connection) with
    | .error closed => pure (.refused closed, connection)
    | .ok (answer, connection) => pure (.answered answer, connection)

/-- Write a group. A writer that was released between lookup and use refuses; then
the group is tried once more with a fresh writer. -/
def writeGroup (table : String) (records : List Record) :
    StateT κ (CacheT ω m) (Except Unavailable (Except StoreError WriteReport)) := do
  match ← coordinator.writeOnce table records with
  | .unavailable reason => pure (.error reason)
  | .answered answer => pure (.ok answer)
  | .refused _ =>
    match ← coordinator.writeOnce table records with
    | .unavailable reason => pure (.error reason)
    | .answered answer => pure (.ok answer)
    | .refused closed => pure (.ok (.error closed))

def constructionError (table : String) : Unavailable → ConstructionError
  | .construction e => e
  | .panicked => WriterCache.brokenError table
  | .unfinished => ⟨table, "writer construction has not finished"⟩

def applyReport (table : String) (records : List Record) (report : WriteReport) :
    m (Except WriteError TableOutcome) := do
  match report.failures with
  | [] => pure (.ok { table, written := report.written, discarded := report.discarded })
  | first :: _ =>
    if coordinator.rollbackOnError then pure (.error (.store table first.error))
    else
      match ← coordinator.routeFailures table records 0 report.failures with
      | .error e => pure (.error e)
      | .ok errored =>
        pure (.ok { table, written := report.written, errored, discarded := report.discarded })

def attempt {α : Type} (f : m (Except WriteError α)) : Writing m κ ω α := do
  match ← liftM f with
  | .ok value => pure value
  | .error e => throw e

def failGroup (table : String) (records : List Record) (cause : FailureCause) :
    Writing m κ ω TableOutcome := do
  attempt (coordinator.routeAll cause records)
  pure { table, errored := records.length }

def processGroup (table : String) (records : List Record) : Writing m κ ω TableOutcome := do
  let mark ← match ← liftM (onConnection (ω := ω) coordinator.store.savepoint) with
    | .ok mark => pure mark
    | .error e => throw (.connection e)
  match ← liftM (coordinator.writeGroup table records) with
  | .error unavailable =>
    let e := constructionError table unavailable
    if coordinator.rollbackOnError then throw (.construction e)
    else coordinator.failGroup table records (.construction e)
  | .ok (.ok report) => attempt (coordinator.applyReport table records report)
  | .ok (.error e) =>
    if coordinator.rollbackOnError then throw (.store table e)
    else
      match ← liftM (onConnection (ω := ω) (coordinator.store.rollbackTo mark)) with
      | .error source => throw (.store table source)
      | .ok () => coordinator.failGroup table records (.store table e)

/-- Write groups in order, given what became of those before them, latest first. -/
def processGroups (done : List TableOutcome) : List Group → Writing m κ ω (List TableOutcome)
  | [] => pure done.reverse
  | (table, records) :: rest => do
    let result ← coordinator.processGroup table records
    processGroups (result :: done) rest

def writeAndCommit (unresolved : Nat) (groups : List Group) : Writing m κ ω WriteOutcome := do
  let tables ← coordinator.processGroups [] groups
  match ← liftM (onConnection (ω := ω) coordinator.store.commit) with
  | .ok () => pure (.ofTables unresolved tables)
  | .error e => throw (.commit e)

/-- Write groups as one transaction: a failure is followed by a rollback. -/
def transact (unresolved : Nat) (groups : List Group) :
    CacheT ω m (Except WriteError WriteOutcome) := do
  match ← liftM coordinator.store.connect with
  | .error e => pure (.error (.connection e))
  | .ok connection =>
    let (result, connection) ← ((coordinator.writeAndCommit unresolved groups).run).run connection
    match result with
    | .ok outcome => pure (.ok outcome)
    | .error e =>
      let _ ← liftM (coordinator.store.rollback connection)
      pure (.error e)

def writeRecords (batch : List Record) : CacheT ω m (Except WriteError WriteOutcome) := do
  match ← liftM (coordinator.group batch) with
  | .error e => pure (.error e)
  | .ok (groups, unresolved) =>
    if groups.isEmpty then pure (.ok (.ofTables unresolved []))
    else coordinator.transact unresolved groups

def countOutcome (metrics : Metrics) (outcome : WriteOutcome) : Metrics :=
  outcome.tables.foldl
    (fun metrics table =>
      (metrics.addTableWritten table.table (UInt64.ofNat table.written)).addTableErrored
        table.table (UInt64.ofNat table.errored))
    (metrics.addBatch (UInt64.ofNat outcome.written) (UInt64.ofNat outcome.errored)
      (UInt64.ofNat outcome.discarded))

/-- Write one batch. An error means that the batch was rolled back. -/
def writeBatch (books : Books) (batch : List Record) :
    CacheT ω m (Except WriteError WriteOutcome × Books) := do
  if batch.isEmpty then
    let (_, cleaner) ← books.cleaner.maintain coordinator.store.toWorkshop
    pure (.ok {}, { metrics := books.metrics.addEmptyBatch, cleaner })
  else
    match ← coordinator.writeRecords batch with
    | .error e => pure (.error e, { books with metrics := books.metrics.addFatalBatch })
    | .ok outcome =>
      pure (.ok outcome, { books with metrics := countOutcome books.metrics outcome })

end Coordinator

end TableRouting
