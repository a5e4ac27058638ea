import TableRouting.Proofs.Batch.Failure
import TableRouting.Proofs.Sink.Service

/-!
# Batches of sinks in service

Whatever happened to a sink since it was opened, a batch that it commits conserves its
records.  A batch that it fails is without a trace in the files, unless the commit
broke off after it had written some.
-/

namespace TableRouting.JsonLines

variable {config : Config} {service : Service (Timed Machine)}

/-- A batch that is given to a sink in service follows its plan. -/
theorem Service.Reachable.follows (hservice : service.Reachable config) (hquiet : service.Quiet)
    (batch : List Record) :
    ∃ settings, Settings.ofConfig config = .ok settings ∧
      service.world.Ends (service.sink.writeBatch batch) fun answer after =>
        let left := settings.writeBatch batch service.world.session.sourceClosed
          service.world.session.errors service.world.host.files
        answer.1 = left.1.mapError .write ∧ after.host.files = left.2.2 := by
  obtain ⟨settings, hsettings, hkept⟩ := hservice.kept Timed.mirrors_files
  refine ⟨settings, hsettings, ?_⟩
  apply World.Ends.imp
    (ends_sinkWriteBatch Timed.mirrors_files hkept.serves (hkept.settled hquiet) batch)
  intro answer after hafter
  exact ⟨hafter.2.2.1, hafter.2.2.2.2⟩

/-- The first batch of a sink comes to what its commit comes to. -/
theorem Service.exists_run {settings : Settings} {machine made : Machine}
    (hfound : Settings.found config machine = (.ok settings, made)) {batch : List Record}
    {plans : List GroupPlan} (hplanned : settings.planned? batch false {} = some plans) :
    ∃ (service : Service (Timed Machine)) (sink : FileSink (Timed Machine))
      (world : World (Timed Machine)), service.Reachable config ∧ service.Quiet ∧
        service.world.session = {} ∧ service.world.host.files = made ∧
        service.world.run (service.sink.writeBatch batch) =
          ((match (settings.commit plans made).1 with
            | .error e => .error (.write (.commit e))
            | .ok () => .ok (.ofTables (settings.unresolved batch).length
                (plans.map GroupPlan.outcome)), sink), world) := by
  obtain ⟨service, hservice, hquiet, hsession, hfiles, hsettings⟩ :=
    Service.exists_of_found Timed.mirrors_files ⟨machine, fun _ => 0⟩ hfound
  obtain ⟨own, hown, hends⟩ := hservice.follows hquiet batch
  obtain rfl : own = settings := Except.ok.inj (hown.symm.trans hsettings)
  rw [World.Ends, hsession, hfiles] at hends
  obtain ⟨hresult, -⟩ := hends
  rw [(Settings.writeBatch_of_planned hplanned made).2] at hresult
  refine ⟨service, (service.world.run (service.sink.writeBatch batch)).1.2,
    (service.world.run (service.sink.writeBatch batch)).2, hservice, hquiet, hsession, hfiles, ?_⟩
  apply Prod.ext
  · apply Prod.ext
    · rw [hresult]
      cases (own.commit plans made).1 <;> rfl
    · rfl
  · rfl

/-- A sink at the root directory that writes a record to the table that the record
names. -/
def configByTable : Config :=
  { sink := { tableNameTemplate := "${table}" }, connection := { connectionString := "/" } }

def Settings.byTable : Settings where
  resolve := Template.resolve
    { source := "${table}", segments := [.field "table"], caseSensitive := false }
  rollbackOnError := true
  root := "/"
  spec := .ofConfig configByTable.sink

theorem found_byTable (machine : Machine) :
    Settings.found configByTable machine = (.ok Settings.byTable, machine) := rfl

def recordFor (table : String) : Record :=
  { id := table, value := .obj [("table", .str table)] }

def planFor (table : String) : GroupPlan :=
  .ofReport Settings.byTable.spec (table, [recordFor table])

def twoRecords : List Record := [recordFor "a", recordFor "b"]

def twoPlans : List GroupPlan := [planFor "a", planFor "b"]

theorem planned_twoRecords :
    Settings.byTable.planned? twoRecords false {} = some twoPlans := by
  have hresolved : Settings.byTable.resolved twoRecords =
      [("a", recordFor "a"), ("b", recordFor "b")] := rfl
  have hrouted : ({} : ErrorLog).routeEach (Settings.byTable.unresolved twoRecords) =
      (.ok (), {}) := rfl
  rw [Settings.planned?, hrouted, Settings.groups, hresolved, Grouping.group_eq]
  rfl

theorem lines_planFor (table : String) : ∃ line, (planFor table).lines = [line] := ⟨_, rfl⟩

theorem waiting_twoPlans :
    ∃ first second, Settings.byTable.waiting twoPlans =
      [(Settings.byTable.fileOf "a", [first]), (Settings.byTable.fileOf "b", [second])] := by
  obtain ⟨first, hfirst⟩ := lines_planFor "a"
  obtain ⟨second, hsecond⟩ := lines_planFor "b"
  have hpending : Settings.byTable.pending twoPlans =
      [(Settings.byTable.fileOf "a", first.render),
        (Settings.byTable.fileOf "b", second.render)] := by
    simp only [Settings.pending, twoPlans, List.flatMap_cons, List.flatMap_nil, hfirst, hsecond]
    rfl
  have hordered :
      (Settings.byTable.fileOf "b").precedes (Settings.byTable.fileOf "a") = false := rfl
  refine ⟨first.render, second.render, ?_⟩
  rw [Settings.waiting, hpending, Connection.byFile, Grouping.group_eq]
  apply List.mergeSort_of_pairwise
  exact List.pairwise_pair.mpr (congrArg (!·) hordered)

/-- The directory of the two files is the root directory, which is always there. -/
theorem made_twoPlans (machine : Machine) {table : String} (htable : table = "a" ∨ table = "b") :
    machine.tree.createDirAll machine.workingDirectory
      ((Path.parent? (Path.join "/" (Settings.byTable.fileOf table).path)).getD "") =
      (.ok (), machine.tree) := by
  rcases htable with rfl | rfl
  · rfl
  · rfl

/-- The first of the two files is made, if nothing stands in its place. -/
theorem commit_twoPlans {machine : Machine} (hnothing : machine.tree.get? ["a.jsonl"] = none) :
    ∃ second tree, tree.get? ["b.jsonl"] = machine.tree.get? ["b.jsonl"] ∧
      Settings.byTable.commit twoPlans machine =
        (Connection.commitFiles "/" [(Settings.byTable.fileOf "b", [second])] :
          StateM Machine _) { machine with tree } := by
  obtain ⟨first, second, hwaiting⟩ := waiting_twoPlans
  have hfirst : (Connection.commitFile "/" (Settings.byTable.fileOf "a") [first] :
      StateM Machine _) machine = (.ok (), { machine with
        tree := machine.tree.set ["a.jsonl"] (.file (Connection.linesText [first])) }) :=
    Connection.commitFile_of_nothing (made_twoPlans machine (.inl rfl)) rfl hnothing
  have hroot : Settings.byTable.root = "/" := rfl
  rw [Settings.waiting] at hwaiting
  rw [Settings.commit, hwaiting, hroot, Connection.commitFiles, Connection.bind_run, hfirst]
  exact ⟨second, _, FileTree.get?_set_of_ne _ (by decide) _, rfl⟩

/-- A batch that a sink in service commits conserves its records. -/
theorem Service.Reachable.conserves (hservice : service.Reachable config)
    (hquiet : service.Quiet) {batch : List Record} {outcome : WriteOutcome}
    {sink : FileSink (Timed Machine)} {world : World (Timed Machine)}
    (hrun : service.world.run (service.sink.writeBatch batch) = ((.ok outcome, sink), world)) :
    ∃ settings, Settings.ofConfig config = .ok settings ∧
      Conserved settings batch outcome service.world.host.files world.host.files := by
  obtain ⟨settings, hsettings, hends⟩ := hservice.follows hquiet batch
  rw [World.Ends, hrun] at hends
  obtain ⟨hresult, hfiles⟩ := hends
  refine ⟨settings, hsettings, ?_⟩
  simp only at hresult hfiles
  rw [hfiles]
  apply Settings.conserved (root_ne_of_ofConfig hsettings)
  generalize (settings.writeBatch batch service.world.session.sourceClosed
    service.world.session.errors service.world.host.files).1 = result at hresult
  cases result with
  | error e => simp [Except.mapError] at hresult
  | ok written => exact congrArg Except.ok (Except.ok.inj hresult).symm

/-- Two tables get a file each, below an empty root directory. -/
theorem Service.Reachable.conserves_twoRecords :
    ∃ (service : Service (Timed Machine)) (outcome : WriteOutcome)
      (sink : FileSink (Timed Machine)) (world : World (Timed Machine)),
      service.Reachable configByTable ∧ service.Quiet ∧ service.world.host.files = {} ∧
        service.world.run (service.sink.writeBatch twoRecords) = ((.ok outcome, sink), world) ∧
        outcome.written = 2 ∧
        ∃ settings, Settings.ofConfig configByTable = .ok settings ∧
          Conserved settings twoRecords outcome service.world.host.files world.host.files := by
  have hnothing {location : Location} (hne : location ≠ []) :
      ({} : Machine).tree.get? location = none := FileTree.get?_empty hne
  obtain ⟨second, tree, hkept, hcommits⟩ := commit_twoPlans (hnothing (by decide))
  obtain ⟨last, hsecond⟩ : ∃ last, (Connection.commitFile "/"
      (Settings.byTable.fileOf "b") [second] : StateM Machine _) { tree } = (.ok (), last) :=
    ⟨_, Connection.commitFile_of_nothing (made_twoPlans { tree } (.inr rfl)) rfl
      (hkept.trans (hnothing (by decide)))⟩
  have hcommit : (Settings.byTable.commit twoPlans ({} : Machine)).1 = .ok () := by
    rw [hcommits, Connection.commitFiles, Connection.bind_run, hsecond]
    rfl
  obtain ⟨service, sink, world, hservice, hquiet, -, hfiles, hrun⟩ :=
    Service.exists_run (found_byTable {}) planned_twoRecords
  simp only [hcommit] at hrun
  exact ⟨service, _, sink, world, hservice, hquiet, hfiles, hrun, rfl,
    hservice.conserves hquiet hrun⟩

/-- A batch that a sink in service fails has changed no file of a table, unless its
commit could write the first of its files. -/
theorem Service.Reachable.untouched_iff_not_begins (hservice : service.Reachable config)
    (hquiet : service.Quiet) {batch : List Record} {e : SinkError}
    {sink : FileSink (Timed Machine)} {world : World (Timed Machine)}
    (hrun : service.world.run (service.sink.writeBatch batch) = ((.error e, sink), world)) :
    ∃ settings, Settings.ofConfig config = .ok settings ∧
      (settings.Untouched service.world.host.files world.host.files ↔
        ¬ settings.Begins batch service.world.session.sourceClosed service.world.session.errors
          service.world.host.files) := by
  obtain ⟨settings, hsettings, hends⟩ := hservice.follows hquiet batch
  rw [World.Ends, hrun] at hends
  obtain ⟨-, hfiles⟩ := hends
  refine ⟨settings, hsettings, ?_⟩
  simp only at hfiles
  rw [hfiles]
  exact Settings.untouched_iff (root_ne_of_ofConfig hsettings)

/-- A directory stands in the place of the second file of a commit: the batch fails, and
the first file has changed. -/
theorem Service.Reachable.touched_before_directory :
    ∃ (service : Service (Timed Machine)) (e : SinkError) (sink : FileSink (Timed Machine))
      (world : World (Timed Machine)), service.Reachable configByTable ∧ service.Quiet ∧
        service.world.host.files = { tree := ({} : FileTree).set ["b.jsonl"] .directory } ∧
        service.world.run (service.sink.writeBatch twoRecords) = ((.error e, sink), world) ∧
        ∃ settings, Settings.ofConfig configByTable = .ok settings ∧
          ¬ settings.Untouched service.world.host.files world.host.files := by
  let machine : Machine := { tree := ({} : FileTree).set ["b.jsonl"] .directory }
  have hnothing : machine.tree.get? ["a.jsonl"] = none := by
    rw [FileTree.get?_set_of_ne _ (by decide)]
    exact FileTree.get?_empty (by decide)
  obtain ⟨second, tree, hkept, hcommits⟩ := commit_twoPlans hnothing
  have hdirectory : tree.get? ["b.jsonl"] = some .directory :=
    hkept.trans (FileTree.get?_set_self _ (by decide) _)
  obtain ⟨failure, hsecond⟩ : ∃ failure, (Connection.commitFile "/"
      (Settings.byTable.fileOf "b") [second] : StateM Machine _) { machine with tree } =
        (.error failure, { machine with tree }) :=
    Connection.commitFile_of_directory (made_twoPlans _ (.inr rfl)) rfl hdirectory
  have hcommit : (Settings.byTable.commit twoPlans machine).1 = .error failure := by
    rw [hcommits, Connection.commitFiles, Connection.bind_run, hsecond]
    rfl
  have hbegins : Settings.byTable.Begins twoRecords false {} machine := by
    obtain ⟨first, second, hwaiting⟩ := waiting_twoPlans
    refine ⟨twoPlans, planned_twoRecords, ?_⟩
    rw [hwaiting]
    refine ⟨machine.tree, ["a.jsonl"], made_twoPlans machine (.inl rfl), rfl, ?_⟩
    simp [hnothing]
  obtain ⟨service, sink, world, hservice, hquiet, hsession, hfiles, hrun⟩ :=
    Service.exists_run (found_byTable machine) planned_twoRecords
  simp only [hcommit] at hrun
  obtain ⟨settings, hsettings, huntouched⟩ := hservice.untouched_iff_not_begins hquiet hrun
  obtain rfl : settings = Settings.byTable := Except.ok.inj (hsettings.symm.trans rfl)
  refine ⟨service, _, sink, world, hservice, hquiet, hfiles, hrun, _, hsettings, ?_⟩
  rw [huntouched, not_not, hsession, hfiles]
  exact hbegins

end TableRouting.JsonLines
