import TableRouting.JsonLines.Source
import TableRouting.Proofs.JsonLines.Counting
import TableRouting.Sink.Basic

/-!
# The plan of a batch

What a sink over the JSON-lines store does with a batch, without its cache: the
failures that it routes, the lines that wait for the commit, and what becomes of
each table.  The plan is a function of the batch, the settings of the sink and the
error log.
-/

namespace TableRouting

def ErrorLog.routeEach (log : ErrorLog) :
    List (Record × FailureCause) → Except WriteError Unit × ErrorLog
  | [] => (.ok (), log)
  | (record, cause) :: rest =>
    match log.route record cause with
    | (.error e, log) => (.error e, log)
    | (.ok (), log) => log.routeEach rest

def errorRecords (failures : List (Record × FailureCause)) : List ErrorRecord :=
  failures.map fun failure => .ofCause failure.1 failure.2

theorem errorRecords_append (first rest : List (Record × FailureCause)) :
    errorRecords (first ++ rest) = errorRecords first ++ errorRecords rest :=
  List.map_append

theorem errorRecords_eq_nil {failures : List (Record × FailureCause)} :
    errorRecords failures = [] ↔ failures = [] :=
  List.map_eq_nil_iff

namespace JsonLines

/-- What decides how a sink writes batches, besides its cache. -/
structure Settings where
  resolve : Record → Except EvaluationError String
  rollbackOnError : Bool
  root : String
  spec : WriterSpec

/-- What becomes of a group of records: its outcome, the failures to be routed and
the lines to be committed. -/
structure GroupPlan where
  outcome : TableOutcome
  failures : List (Record × FailureCause)
  lines : List TableLine

def reported (table : String) (records : List Record) (failures : List RecordFailure) :
    List (Record × FailureCause) :=
  failures.filterMap fun failure =>
    records[failure.index]?.map fun record => (record, .store table failure.error)

/-- Every record of a group without a writer fails. -/
def GroupPlan.ofRefusal (group : Group) (e : ConstructionError) : GroupPlan where
  outcome := { table := group.1, errored := group.2.length }
  failures := group.2.map fun record => (record, .construction e)
  lines := []

/-- The report of the writer decides. -/
def GroupPlan.ofReport (spec : WriterSpec) (group : Group) : GroupPlan where
  outcome :=
    { table := group.1
      written := (TableWriter.report spec group.2).written
      errored := (reported group.1 group.2 (TableWriter.report spec group.2).failures).length
      discarded := (TableWriter.report spec group.2).discarded }
  failures := reported group.1 group.2 (TableWriter.report spec group.2).failures
  lines := TableWriter.lines spec group.1 group.2

namespace Settings

variable (settings : Settings)

def coordinator (S : Type) [Host (StateM S)] :
    Coordinator (SessionT (StateM S)) Connection TableWriter where
  resolve := settings.resolve
  store := store settings.root settings.spec
  route := route
  rollbackOnError := settings.rollbackOnError

def resolved (batch : List Record) : List (String × Record) :=
  batch.filterMap fun record =>
    match settings.resolve record with
    | .ok table => some (table, record)
    | .error _ => none

def unresolved (batch : List Record) : List (Record × FailureCause) :=
  batch.filterMap fun record =>
    match settings.resolve record with
    | .ok _ => none
    | .error e => some (record, .evaluation e)

def groups (batch : List Record) : List Group :=
  Grouping.group (settings.resolved batch)

/-- The failure that makes a report fail the batch. -/
def fatal? (report : WriteReport) : Option RecordFailure :=
  if settings.rollbackOnError then report.failures.head? else none

/-- What becomes of a group, unless it fails the batch. -/
def planGroup (group : Group) : Except WriteError GroupPlan :=
  match TableWriter.create group.1 settings.spec with
  | .error e =>
    if settings.rollbackOnError then .error (.construction e) else .ok (.ofRefusal group e)
  | .ok _ =>
    match settings.fatal? (TableWriter.report settings.spec group.2) with
    | some failure => .error (.store group.1 failure.error)
    | none => .ok (.ofReport settings.spec group)

def runGroup (group : Group) (log : ErrorLog) : Except WriteError GroupPlan × ErrorLog :=
  match settings.planGroup group with
  | .error e => (.error e, log)
  | .ok plan => ((log.routeEach plan.failures).1.map fun _ => plan, (log.routeEach plan.failures).2)

def runGroups : List Group → ErrorLog → Except WriteError (List GroupPlan) × ErrorLog
  | [], log => (.ok [], log)
  | group :: rest, log =>
    match settings.runGroup group log with
    | (.error e, log) => (.error e, log)
    | (.ok plan, log) =>
      match runGroups rest log with
      | (.error e, log) => (.error e, log)
      | (.ok plans, log) => (.ok (plan :: plans), log)

def fileOf (table : String) : TableFile := ⟨settings.spec.schema, table⟩

def pending (plans : List GroupPlan) : List (TableFile × String) :=
  plans.flatMap fun plan =>
    plan.lines.map fun line => (settings.fileOf plan.outcome.table, line.render)

def commit (plans : List GroupPlan) {σ : Type} [Host (StateM σ)] :
    StateM σ (Except StoreError Unit) :=
  Connection.commitFiles settings.root (Connection.byFile (settings.pending plans))

/-- What a batch leaves: its outcome, the error log and the files. -/
abbrev Left (σ : Type) := Except WriteError WriteOutcome × ErrorLog × σ

variable {σ : Type} [Host (StateM σ)]

/-- Write groups and commit them, on a source that may be closed. -/
def writeGroups (unresolved : Nat) (groups : List Group) (sourceClosed : Bool) (log : ErrorLog)
    (files : σ) : Left σ :=
  if sourceClosed then (.error (.connection (.connection "Data source is closed")), log, files)
  else
    match settings.runGroups groups log with
    | (.error e, log) => (.error e, log, files)
    | (.ok plans, log) =>
      match settings.commit plans files with
      | (.error e, files) => (.error (.commit e), log, files)
      | (.ok (), files) =>
        (.ok (.ofTables unresolved (plans.map GroupPlan.outcome)), log, files)

def writeBatch (batch : List Record) (sourceClosed : Bool) (log : ErrorLog) (files : σ) : Left σ :=
  if batch.isEmpty then (.ok {}, log, files)
  else
    match log.routeEach (settings.unresolved batch) with
    | (.error e, log) => (.error e, log, files)
    | (.ok (), log) =>
      if (settings.groups batch).isEmpty then
        (.ok (.ofTables (settings.unresolved batch).length []), log, files)
      else
        settings.writeGroups (settings.unresolved batch).length (settings.groups batch)
          sourceClosed log files

end Settings

end JsonLines

end TableRouting
