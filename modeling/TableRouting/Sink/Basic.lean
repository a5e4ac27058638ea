import TableRouting.Batch.Coordinator
import TableRouting.Metrics.Exposition
import TableRouting.Sink.Error
import TableRouting.Template.Resolve

/-!
# Sinks

A sink writes batches to dynamically named tables until it is closed. Opening it
checks the whole configuration, makes the data source and tries a connection;
when that fails, the source is closed again. Closing it releases every cached
writer and then the source, once.
-/

namespace TableRouting

/-- A sink with the counters that its batches change. -/
structure Sink (m : Type → Type) (κ ω : Type) where
  coordinator : Coordinator m κ ω
  books : Books
  isOpen : Bool := true

/-- What closing a sink released. -/
structure CloseReport where
  writersReleased : Nat := 0
  errors : List ReleaseError := []
  /-- The sink was closed before, and nothing was released. -/
  alreadyClosed : Bool := false
  deriving DecidableEq, Repr

namespace Sink

/-- The compiled template of a configuration without issues. A template that does
not compile is an issue too, unless the template is reported already. -/
def checkConfig (config : Config) : Except (List ConfigIssue) Template :=
  let issues := config.issues
  match Template.compile config.sink.tableNameTemplate config.sink.caseSensitive with
  | .ok template => if issues.isEmpty then .ok template else .error issues
  | .error e =>
    if issues.any fun issue => issue.setting == "table_name_template" then .error issues
    else .error (issues ++ [⟨"sink", "table_name_template", e.message⟩])

variable {m : Type → Type} [Monad m] {κ ω : Type}

/-- Open a sink. `provide` makes the data source and the store over it; `route`
takes records that fail one by one. The cache starts empty. -/
def openWith (config : Config) (limits : CacheLimits)
    (provide : WriterSpec → ConnectionConfig → m (Except ConfigIssue (Store m κ ω)))
    (route : Record → FailureCause → m (Except WriteError Unit)) :
    CacheT ω m (Except SinkError (Sink m κ ω)) := do
  match checkConfig config with
  | .error issues => pure (.error (.invalidConfig issues))
  | .ok template =>
    match ← liftM (provide (.ofConfig config.sink) config.connection) with
    | .error issue => pure (.error (.invalidConfig [issue]))
    | .ok store =>
      match ← liftM store.connect with
      | .error e =>
        let _ ← liftM store.closeSource
        let reason := e.message
        pure (.error (.invalidConfig
          [⟨"connection", "connection_string", s!"Data source is unreachable: {reason}"⟩]))
      | .ok _ =>
        set ({ limits } : WriterCache ω)
        let now ← store.now
        pure (.ok {
          coordinator := {
            resolve := template.resolve
            store
            route
            rollbackOnError := config.sink.rollbackOnError }
          books := { cleaner := .start limits.cleanupInterval now } })

def writeBatch (sink : Sink m κ ω) (batch : List Record) :
    CacheT ω m (Except SinkError WriteOutcome × Sink m κ ω) := do
  if sink.isOpen then
    let (result, books) ← sink.coordinator.writeBatch sink.books batch
    pure (result.mapError .write, { sink with books })
  else pure (.error .closed, sink)

/-- Close the sink. Failures on the way are reported, and closing goes on. -/
def close (sink : Sink m κ ω) : CacheT ω m (CloseReport × Sink m κ ω) := do
  if sink.isOpen then
    let writersReleased ← sink.coordinator.store.invalidateAll
    let errors ← match ← liftM sink.coordinator.store.closeSource with
      | .ok () => pure []
      | .error e => pure [.dataSource e.message]
    pure ({ writersReleased, errors }, { sink with isOpen := false })
  else pure ({ alreadyClosed := true }, sink)

/-- The metrics of the sink and its cache as text. -/
def metricsText (sink : Sink m κ ω) : CacheT ω m String := do
  pure (sink.books.metrics.exportText (← get).statistics)

end Sink

end TableRouting
