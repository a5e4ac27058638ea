import TableRouting.Proofs.Sink.Opening

/-!
# The cache does not show

What comes of the batches that a sink is given depends on the batches, the
configuration and the file system.  The limits of the cache, what the clock shows,
and what else is done to the cache between the batches leave no trace in the
answers, the error records and the files: every run does what the plans of its
batches say.
-/

namespace TableRouting.JsonLines

inductive Command where
  | batch (records : List Record)
  | lookup (table : String)
  | invalidate
  | sweep
  /-- Sweep if a sweep is due. -/
  | maintain

def Command.batch? : Command → Option (List Record)
  | batch records => some records
  | _ => none

def batchesOf (commands : List Command) : List (List Record) :=
  commands.filterMap Command.batch?

/-- What becomes of a batch that a sink is given. -/
abbrev BatchResult := Except SinkError WriteOutcome

section

variable {S : Type} [Host (StateM S)]

def perform (sink : FileSink S) : Command → Sinking S (List BatchResult × FileSink S)
  | .batch records => do
    let (result, sink) ← sink.writeBatch records
    pure ([result], sink)
  | .lookup table => do
    let _ ← sink.coordinator.store.get table
    pure ([], sink)
  | .invalidate => do
    let _ ← sink.coordinator.store.invalidateAll
    pure ([], sink)
  | .sweep => do
    let _ ← sink.coordinator.store.cleanUp
    pure ([], sink)
  | .maintain => do
    let (_, cleaner) ← sink.books.cleaner.maintain sink.coordinator.store.toWorkshop
    pure ([], { sink with books := { sink.books with cleaner } })

def performAll (sink : FileSink S) : List Command → Sinking S (List BatchResult)
  | [] => pure []
  | command :: rest => do
    let (results, sink) ← perform sink command
    let more ← performAll sink rest
    pure (results ++ more)

end

variable {S σ : Type} {view : S → σ} {world : World S}

/-- A computation left these results, error records and files. -/
structure Yields (view : S → σ) (world after : World S) (results : List BatchResult)
    (left : List BatchResult × ErrorLog × σ) : Prop where
  results : results = left.1
  session : after.session = { world.session with errors := left.2.1 }
  files : view after.host = left.2.2

theorem Yields.of_calm {after : World S} (hcalm : World.Calm view world after) :
    Yields view world after [] ([], world.session.errors, view world.host) where
  results := rfl
  session := hcalm.session
  files := hcalm.files

variable [Host (StateM S)] [Host (StateM σ)] {settings : Settings} {sink : FileSink S}

def Settings.writeBatches (settings : Settings) (sourceClosed : Bool) :
    List (List Record) → ErrorLog → σ → List BatchResult × ErrorLog × σ
  | [], log, files => ([], log, files)
  | batch :: rest, log, files =>
    let left := settings.writeBatch batch sourceClosed log files
    let more := settings.writeBatches sourceClosed rest left.2.1 left.2.2
    (left.1.mapError .write :: more.1, more.2)

/-- Writing a batch through an open sink follows the plan of the batch. -/
theorem ends_sinkWriteBatch (hmirrors : Mirrors view) (hserves : Serves sink settings)
    (hsettled : Settled settings.spec world.cache) (batch : List Record) :
    world.Ends (sink.writeBatch batch) fun answer after =>
      let left := settings.writeBatch batch world.session.sourceClosed world.session.errors
        (view world.host)
      Settled settings.spec after.cache ∧ Serves answer.2 settings ∧
        answer.1 = left.1.mapError .write ∧
        after.session = { world.session with errors := left.2.1 } ∧
        view after.host = left.2.2 := by
  rw [Sink.writeBatch, if_pos hserves.isOpen, hserves.coordinator, World.ends_bind]
  apply World.Ends.imp (ends_writeBatch hmirrors hsettled sink.books batch)
  intro answer after hfollows
  refine ⟨hfollows.settled, ⟨rfl, hserves.isOpen⟩, ?_, hfollows.session, hfollows.files⟩
  exact congrArg (Except.mapError SinkError.write) hfollows.result

/-- Whatever is asked of a sink, it goes on with its settings and a settled cache, and
only a batch leaves a trace. -/
theorem ends_perform (hmirrors : Mirrors view) (hserves : Serves sink settings)
    (hsettled : Settled settings.spec world.cache) (command : Command) :
    world.Ends (perform sink command) fun ended after =>
      Settled settings.spec after.cache ∧ Serves ended.2 settings ∧
        Yields view world after ended.1
          (settings.writeBatches world.session.sourceClosed command.batch?.toList
            world.session.errors (view world.host)) := by
  have hstore : sink.coordinator.store = store settings.root settings.spec := by
    rw [hserves.coordinator]
    rfl
  cases command with
  | batch records =>
      rw [perform, World.ends_bind]
      apply World.Ends.imp (ends_sinkWriteBatch hmirrors hserves hsettled records)
      intro answer after hafter
      obtain ⟨hsettled, hserves, hresult, hsession, hfiles⟩ := hafter
      exact ⟨hsettled, hserves, congrArg (fun result => [result]) hresult, hsession, hfiles⟩
  | lookup table =>
      rw [perform, hstore, World.ends_bind]
      apply World.Ends.imp (ends_get hmirrors settings.root hsettled table)
      intro answer after hafter
      exact ⟨hafter.1, hserves, Yields.of_calm hafter.2.2⟩
  | invalidate =>
      rw [perform, hstore, World.ends_bind]
      apply World.Ends.imp (ends_invalidateAll view settings.root hsettled)
      intro answer after hafter
      exact ⟨hafter.1, hserves, Yields.of_calm hafter.2⟩
  | sweep =>
      rw [perform, hstore, World.ends_bind]
      apply World.Ends.imp (ends_cleanUp hmirrors settings.root hsettled)
      intro answer after hafter
      exact ⟨hafter.1, hserves, Yields.of_calm hafter.2⟩
  | maintain =>
      rw [perform, hstore, World.ends_bind]
      apply World.Ends.imp (ends_maintain hmirrors settings.root hsettled sink.books.cleaner)
      intro answer after hafter
      exact ⟨hafter.1, ⟨hserves.coordinator, hserves.isOpen⟩, Yields.of_calm hafter.2⟩

theorem writeBatches_append (settings : Settings) (sourceClosed : Bool)
    (first second : List (List Record)) (log : ErrorLog) (files : σ) :
    settings.writeBatches sourceClosed (first ++ second) log files =
      let left := settings.writeBatches sourceClosed first log files
      let more := settings.writeBatches sourceClosed second left.2.1 left.2.2
      (left.1 ++ more.1, more.2) := by
  induction first generalizing log files with
  | nil => rfl
  | cons batch rest ih =>
      rw [List.cons_append, Settings.writeBatches, Settings.writeBatches, ih]
      rfl

/-- Whatever is asked of a sink, its batches leave what their plans say. -/
theorem ends_performAll (hmirrors : Mirrors view) (hserves : Serves sink settings)
    (hsettled : Settled settings.spec world.cache) (commands : List Command) :
    world.Ends (performAll sink commands) fun results after =>
      Yields view world after results
        (settings.writeBatches world.session.sourceClosed (batchesOf commands)
          world.session.errors (view world.host)) := by
  induction commands generalizing world sink with
  | nil => exact ⟨rfl, rfl, rfl⟩
  | cons command rest ih =>
      have hbatches : batchesOf (command :: rest) = command.batch?.toList ++ batchesOf rest := by
        rw [batchesOf, List.filterMap_cons]
        cases command.batch? <;> rfl
      rw [performAll, hbatches, writeBatches_append]
      apply World.Ends.bind (ends_perform hmirrors hserves hsettled command)
      intro ended between hbetween
      obtain ⟨hsettled, hserves, hfirst⟩ := hbetween
      generalize settings.writeBatches world.session.sourceClosed command.batch?.toList
        world.session.errors (view world.host) = left at hfirst ⊢
      have hsource : between.session.sourceClosed = world.session.sourceClosed := by
        rw [hfirst.session]
      have herrors : between.session.errors = left.2.1 := congrArg Session.errors hfirst.session
      apply World.Ends.bind (ih hserves hsettled)
      intro more after hrest
      rw [hsource, herrors, hfirst.files] at hrest
      rw [World.ends_pure]
      constructor
      · exact congrArg₂ (· ++ ·) hfirst.results hrest.results
      · rw [hrest.session, hfirst.session]
      · exact hrest.files

/-- How a sink is used: the limits of its cache, what its clock shows, and what is
asked of it. -/
structure Usage where
  limits : CacheLimits
  readings : Nat → Nat
  commands : List Command

/-- What can be seen of a sink that was used. -/
structure Seen (σ : Type) where
  answers : Except SinkError (List BatchResult)
  errors : ErrorLog
  files : σ

namespace Usage

def program (usage : Usage) (σ : Type) [Host (StateM σ)] (config : Config) :
    Sinking (Timed σ) (Except SinkError (List BatchResult)) := do
  match ← openSink (Timed σ) config usage.limits with
  | .error e => pure (.error e)
  | .ok sink =>
    let results ← performAll sink usage.commands
    pure (.ok results)

def run (usage : Usage) (config : Config) (log : ErrorLog) (files : σ) : Seen σ :=
  let start : World (Timed σ) := ⟨{}, { errors := log }, ⟨files, usage.readings⟩⟩
  let (answers, after) := start.run (usage.program σ config)
  ⟨answers, after.session.errors, after.host.files⟩

end Usage

/-- What the plans of batches say. -/
def Settings.seen (config : Config) (batches : List (List Record)) (log : ErrorLog)
    (files : σ) : Seen σ :=
  match Settings.found config files with
  | (.error e, files) => ⟨.error e, log, files⟩
  | (.ok settings, files) =>
    let left := settings.writeBatches false batches log files
    ⟨.ok left.1, left.2.1, left.2.2⟩

/-- A sink that is used does what the plans of its batches say. -/
theorem Usage.run_eq (usage : Usage) (config : Config) (log : ErrorLog) (files : σ) :
    usage.run config log files = Settings.seen config (batchesOf usage.commands) log files := by
  have hends : World.Ends ⟨{}, { errors := log }, ⟨files, usage.readings⟩⟩
      (usage.program σ config) fun answers after =>
        ⟨answers, after.session.errors, after.host.files⟩ =
          Settings.seen config (batchesOf usage.commands) log files := by
    rw [Usage.program, Settings.seen]
    apply World.Ends.bind (ends_openSink Timed.mirrors_files config usage.limits rfl)
    intro answer after hafter
    obtain ⟨hsession, hfiles, hanswer⟩ := hafter
    simp only at hfiles hanswer
    generalize Settings.found config files = found at hfiles hanswer
    obtain ⟨e | settings, made⟩ := found
    · simp only at hanswer hfiles
      rw [hanswer, World.ends_pure, hsession, hfiles]
    · obtain ⟨-, hsettled, sink, rfl, hserves⟩ := hanswer
      apply World.Ends.bind (ends_performAll Timed.mirrors_files hserves hsettled usage.commands)
      intro results last hyields
      rw [hsession, hfiles] at hyields
      rw [World.ends_pure, hyields.results, hyields.session, hyields.files]
  exact hends

/-- Sinks that are given the same batches give the same answers, and leave the same
error records and the same files. -/
theorem Usage.run_eq_of_batches_eq (config : Config) (log : ErrorLog) (files : σ)
    {first second : Usage} (hbatches : batchesOf first.commands = batchesOf second.commands) :
    first.run config log files = second.run config log files := by
  calc
    first.run config log files
      = Settings.seen config (batchesOf first.commands) log files := first.run_eq config log files
    _ = Settings.seen config (batchesOf second.commands) log files := by rw [hbatches]
    _ = second.run config log files := (second.run_eq config log files).symm

/-- A writer that is built anew for every batch does what one that is kept does. -/
theorem Usage.run_eq_without_room :
    let config : Config :=
      { sink := { tableNameTemplate := "orders" }, connection := { connectionString := "/" } }
    let batch : List Record := [{ id := "1", value := .obj [("paid", .bool true)] }]
    let first : Usage :=
      { limits := { capacity := 0, ttl := 0 }
        readings := fun index => 1000 * index
        commands := [.lookup "refunds", .batch batch, .invalidate, .sweep, .batch batch] }
    let second : Usage :=
      { limits := {}, readings := fun _ => 0, commands := [.batch batch, .batch batch] }
    batchesOf first.commands = batchesOf second.commands ∧
      first.run config {} ({} : Machine) = second.run config {} ({} : Machine) :=
  ⟨rfl, Usage.run_eq_of_batches_eq _ _ _ rfl⟩

end TableRouting.JsonLines
