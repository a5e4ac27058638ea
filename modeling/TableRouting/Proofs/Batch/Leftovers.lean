import TableRouting.Proofs.Batch.Course
import TableRouting.Proofs.Batch.Following
import TableRouting.Proofs.Sink.Outcomes

/-!
# Error records of batches that fail

Rolling a batch back does not take its error records back.  A batch that fails leaves
those of the records that did not resolve, and those of the groups that were through
before the failure: it leaves none just when there was nothing to route before.
-/

namespace TableRouting

variable {m : Type → Type} [Monad m] {σ κ ω ρ : Type}

/-- The parts of a coordinator that routes failed records to an error log: nothing else
changes the log. -/
structure Coordinator.Logs (coordinator : Coordinator m κ ω) (runner : Runner m σ)
    (errors : σ → ErrorLog) : Prop where
  route : ∀ record cause world,
    ((runner.run (coordinator.route record cause) world).1,
        errors (runner.run (coordinator.route record cause) world).2) =
      (errors world).route record cause
  now : ∀ cache world, errors (runner.run (coordinator.store.now cache) world).2 = errors world
  create : ∀ table cache world,
    errors (runner.run (coordinator.store.create table cache) world).2 = errors world
  close : ∀ writer cache world,
    errors (runner.run (coordinator.store.close writer cache) world).2 = errors world
  connect : ∀ world, errors (runner.run coordinator.store.connect world).2 = errors world
  savepoint : ∀ connection world,
    errors (runner.run (coordinator.store.savepoint connection) world).2 = errors world
  rollbackTo : ∀ mark connection world,
    errors (runner.run (coordinator.store.rollbackTo mark connection) world).2 = errors world
  rollback : ∀ connection world,
    errors (runner.run (coordinator.store.rollback connection) world).2 = errors world
  write : ∀ writer records connection world,
    errors (runner.run (coordinator.store.write writer records connection) world).2 =
      errors world
  commit : ∀ connection world,
    errors (runner.run (coordinator.store.commit connection) world).2 = errors world

/-- A log has taken the failures of a trail, and none of them has failed the batch. -/
structure ErrorLog.Takes (log : ErrorLog) (entries : List (TrailEntry ρ)) (after : ErrorLog) :
    Prop where
  policy : after.policy = .toError
  records : after.records.toList =
    log.records.toList ++ errorRecords (entries.filterMap TrailEntry.routing?)
  patient : ∀ entry ∈ entries, entry.isStop = false

namespace ErrorLog

theorem takes_nil {log : ErrorLog} (hpolicy : log.policy = .toError) :
    log.Takes ([] : List (TrailEntry ρ)) log :=
  ⟨hpolicy, (List.append_nil _).symm, fun _ hentry => absurd hentry List.not_mem_nil⟩

theorem Takes.append {log between after : ErrorLog} {entries more : List (TrailEntry ρ)}
    (hfirst : log.Takes entries between) (hrest : between.Takes more after) :
    log.Takes (entries ++ more) after where
  policy := hrest.policy
  records := by
    rw [hrest.records, hfirst.records, List.filterMap_append, errorRecords_append,
      List.append_assoc]
  patient := List.forall_mem_append.mpr ⟨hfirst.patient, hrest.patient⟩

/-- A log that keeps error records takes every failure. -/
theorem takes_route {log : ErrorLog} (hpolicy : log.policy = .toError) (record : Record)
    (cause : FailureCause) :
    log.Takes ([.routed record cause (log.route record cause).1] : List (TrailEntry ρ))
      (log.route record cause).2 := by
  have hroute : log.route record cause =
      (.ok (), { log with records := log.records.push (.ofCause record cause) }) := by
    simp only [ErrorLog.route, hpolicy]
  rw [hroute]
  exact ⟨hpolicy, Array.toList_push, List.forall_mem_singleton.mpr rfl⟩

/-- An entry that routes nothing leaves the log alone. -/
theorem takes_other {log : ErrorLog} (hpolicy : log.policy = .toError) {entry : TrailEntry ρ}
    (hrouting : entry.routing? = none) (hpatient : entry.isStop = false) :
    log.Takes [entry] log where
  policy := hpolicy
  records := by
    rw [List.filterMap_cons_none hrouting]
    exact (List.append_nil _).symm
  patient := List.forall_mem_singleton.mpr hpatient

end ErrorLog

def Trail.ofLog (runner : Runner m σ) (errors : σ → ErrorLog) : Trail m σ ρ where
  toRunner := runner
  Leads world entries after :=
    (errors world).policy = .toError → (errors world).Takes entries (errors after)
  refl _ hpolicy := ErrorLog.takes_nil hpolicy
  trans hfirst hrest hpolicy :=
    (hfirst hpolicy).append (hrest (hfirst hpolicy).policy)

section

variable {coordinator : Coordinator m κ ω} {runner : Runner m σ} {errors : σ → ErrorLog}

theorem leads_of_unchanged {world after : σ} (hsame : errors after = errors world) :
    (Trail.ofLog (ρ := ρ) runner errors).Leads world [] after := by
  intro hpolicy
  rw [hsame]
  exact ErrorLog.takes_nil hpolicy

/-- The log is one aspect of what a coordinator does; the rows on a connection are not in
it. -/
theorem Coordinator.Logs.tracked (hlogs : coordinator.Logs runner errors) :
    coordinator.Tracked (fun _ => ([] : List ρ)) (.ofLog runner errors) where
  workshop := {
    now := fun cache world => leads_of_unchanged (hlogs.now cache world)
    create := fun table cache world => leads_of_unchanged (hlogs.create table cache world)
    close := fun writer cache world => leads_of_unchanged (hlogs.close writer cache world) }
  connect world := leads_of_unchanged (hlogs.connect world)
  savepoint connection world := leads_of_unchanged (hlogs.savepoint connection world)
  rollbackTo mark connection world := leads_of_unchanged (hlogs.rollbackTo mark connection world)
  rollback connection world := leads_of_unchanged (hlogs.rollback connection world)
  route record cause world := by
    intro hpolicy
    have hroute := hlogs.route record cause world
    have htakes := ErrorLog.takes_route (ρ := ρ) hpolicy record cause
    rw [← hroute] at htakes
    exact htakes
  write writer records connection world := by
    refine ⟨[], rfl, fun hpolicy => ?_⟩
    have hsame := hlogs.write writer records connection world
    change (errors world).Takes _ (errors (runner.run _ world).2)
    rw [hsame]
    exact ErrorLog.takes_other hpolicy rfl rfl
  commit connection world := by
    intro hpolicy
    have hsame := hlogs.commit connection world
    change (errors world).Takes _ (errors (runner.run _ world).2)
    rw [hsame]
    exact ErrorLog.takes_other hpolicy rfl rfl

end

/-- What a batch that failed leaves in the error log, given the fates of the groups before
the failure. -/
structure LeavesErrors (coordinator : Coordinator m κ ω) (runner : Runner m σ)
    (batch : List Record) (cache : WriterCache ω) (world : σ) (fates : List (Fate ρ))
    (before after : List ErrorRecord) : Prop where
  groups : fates.map Fate.group <+: coordinator.groups batch
  /-- Every group before the failure has met its fate in its turn. -/
  meets : coordinator.MeetsFrom runner (coordinator.firstTurn runner batch cache world) fates
  records : after = before ++ errorRecords (coordinator.unroutable batch) ++
    errorRecords (fates.flatMap Fate.failures)
  /-- With rollback on error, what is left are the records that did not resolve. -/
  rollback : coordinator.rollbackOnError = true →
    after = before ++ errorRecords (coordinator.unroutable batch)
  /-- Nothing is left just when there was nothing to route before the failure. -/
  eq_iff : after = before ↔
    (∀ record ∈ batch, ∃ table, coordinator.resolve record = .ok table) ∧
      ∀ fate ∈ fates, fate.failures = []

section

variable {coordinator : Coordinator m κ ω} {runner : Runner m σ} {batch : List Record}
  {cache : WriterCache ω} {world : σ} {fates : List (Fate ρ)}

omit [Monad m] in
theorem unroutable_eq_nil_iff : coordinator.unroutable batch = [] ↔
    ∀ record ∈ batch, ∃ table, coordinator.resolve record = .ok table := by
  rw [Coordinator.unroutable, List.map_eq_nil_iff, Coordinator.unresolved,
    List.filterMap_eq_nil_iff]
  apply forall₂_congr
  intro record _
  cases coordinator.resolve record with
  | error e => simp
  | ok table => simp

theorem leavesErrors {before after : List ErrorRecord}
    (hgroups : fates.map Fate.group <+: coordinator.groups batch)
    (hmeets : coordinator.MeetsFrom runner (coordinator.firstTurn runner batch cache world) fates)
    (hclean : Clean coordinator fates)
    (hrecords : after = before ++ errorRecords (coordinator.unroutable batch) ++
      errorRecords (fates.flatMap Fate.failures)) :
    LeavesErrors coordinator runner batch cache world fates before after where
  groups := hgroups
  meets := hmeets
  records := hrecords
  rollback hrollback := by
    have hnone : fates.flatMap Fate.failures = [] :=
      List.flatMap_eq_nil_iff.mpr (hclean hrollback)
    rw [hrecords, hnone]
    exact List.append_nil _
  eq_iff := by
    calc
      after = before
        ↔ errorRecords (coordinator.unroutable batch) ++
            errorRecords (fates.flatMap Fate.failures) = [] := by
          rw [hrecords, List.append_assoc, List.append_right_eq_self]
      _ ↔ coordinator.unroutable batch = [] ∧ fates.flatMap Fate.failures = [] := by
          rw [List.append_eq_nil_iff, errorRecords_eq_nil, errorRecords_eq_nil]
      _ ↔ (∀ record ∈ batch, ∃ table, coordinator.resolve record = .ok table) ∧
            ∀ fate ∈ fates, fate.failures = [] := by
          rw [unroutable_eq_nil_iff, List.flatMap_eq_nil_iff]

/-- The failures of a trail that ends before its time, and not because of routing. -/
theorem filterMap_failed (failures : List (Record × FailureCause)) {last : List (TrailEntry ρ)}
    (hhalts : Halts last)
    (hpatient : ∀ entry ∈ TrailEntry.routedAll failures ++ (fates.flatMap Fate.entries ++ last),
      entry.isStop = false) :
    (TrailEntry.routedAll failures ++ (fates.flatMap Fate.entries ++ last)).filterMap
        TrailEntry.routing? = failures ++ fates.flatMap Fate.failures := by
  have hlast : last.filterMap TrailEntry.routing? = [] := by
    rcases hhalts with ⟨entry, hentry, hstop⟩ | hnone
    · have hmem := List.mem_append_right (TrailEntry.routedAll failures)
        (List.mem_append_right (fates.flatMap Fate.entries) hentry)
      rw [hpatient entry hmem] at hstop
      exact Bool.noConfusion hstop
    · exact hnone
  have hfates : (fates.flatMap Fate.entries).filterMap TrailEntry.routing? =
      fates.flatMap Fate.failures := by
    rw [List.filterMap_flatMap]
    exact List.flatMap_congr fun fate _ => fate.filterMap_entries
  rw [List.filterMap_append, List.filterMap_append, TrailEntry.filterMap_routedAll, hfates, hlast,
    List.append_nil]

end

variable [LawfulMonad m]

/-- A batch that fails leaves the error records of what was routed before the failure. -/
theorem writeBatch_leavesErrors {coordinator : Coordinator m κ ω} {runner : Runner m σ}
    {errors : σ → ErrorLog} (hlogs : coordinator.Logs runner errors) (books : Books)
    (batch : List Record) (cache : WriterCache ω) {world : σ}
    (hpolicy : (errors world).policy = .toError) {e : WriteError}
    (hfailed : (runner.run (coordinator.writeBatch books batch cache) world).1.1.1 = .error e) :
    ∃ fates : List (Fate Unit), LeavesErrors coordinator runner batch cache world fates
      (errors world).records.toList
      (errors (runner.run (coordinator.writeBatch books batch cache) world).2).records.toList := by
  obtain ⟨entries, hleads, htrail⟩ :=
    leavesFrom_writeBatch (hlogs.tracked (ρ := Unit)) books batch cache world
  have htakes := hleads hpolicy
  have hbatch : BatchTrail coordinator runner (fun _ => ([] : List Unit)) batch cache
      world (runner.run (coordinator.writeBatch books batch cache) world).1.1.1 entries := htrail
  rw [hfailed] at hbatch
  cases hbatch with
  | stopped _ hstop =>
      obtain ⟨entry, hentry, hstopped⟩ := hstop
      rw [htakes.patient entry hentry] at hstopped
      exact Bool.noConfusion hstopped
  | grouped hgroups =>
      cases hgroups with
      | failed _ fates hprefix hmeets hclean hhalts =>
          refine ⟨fates, leavesErrors hprefix hmeets hclean ?_⟩
          rw [List.append_assoc, ← errorRecords_append,
            ← filterMap_failed _ hhalts htakes.patient]
          exact htakes.records

namespace JsonLines

/-- A sink over the JSON-lines store routes failed records to the log of its session, and
nothing else touches the log. -/
theorem logs_coordinator {S : Type} [Host (StateM S)] (settings : Settings) :
    (settings.coordinator S).Logs (.session S) fun world => world.1.errors where
  route _ _ _ := rfl
  now _ _ := rfl
  create _ _ _ := rfl
  close _ _ _ := rfl
  connect world := by
    change ((connect settings.root : SessionT (StateM S) _) world.1 world.2).1.2.errors = _
    rw [connect_run]
  savepoint _ _ := rfl
  rollbackTo _ _ _ := rfl
  rollback _ _ := rfl
  write _ _ _ _ := rfl
  commit _ _ := rfl

/-- A sink that writes the field `id` of a record to the table that the record names. -/
def Settings.keyed : Settings where
  resolve := Settings.byTable.resolve
  rollbackOnError := true
  root := "/"
  spec := .ofConfig
    { tableNameTemplate := "${table}", fieldMappings := [{ field := "id", column := "id" }] }

/-- One record names no table, and the other has no field `id`. -/
def mishaps : List Record :=
  [⟨"1", .obj [], []⟩, ⟨"2", .obj [("table", .str "a")], []⟩]

def mishap : WriteError :=
  .store "a" (.constraint "Record '2' has no field 'id' for column 'id'")

/-- What the plan of the batch says, with an empty log. -/
theorem plan_mishaps (machine : Machine) :
    (Settings.keyed.writeBatch mishaps false {} machine).1 = .error mishap := by
  have hresolved : Settings.keyed.resolved mishaps =
      [("a", ⟨"2", .obj [("table", .str "a")], []⟩)] := rfl
  have hgroups : Settings.keyed.groups mishaps =
      [("a", [⟨"2", .obj [("table", .str "a")], []⟩])] := by
    rw [Settings.groups, hresolved, Grouping.group_eq]
    rfl
  rw [Settings.writeBatch, hgroups]
  rfl

theorem writeBatch_mishaps : ((Runner.session Machine).run
    ((Settings.keyed.coordinator Machine).writeBatch { cleaner := .start 0 0 } mishaps
      { limits := {} }) ({}, {})).1.1.1 = .error mishap := by
  have hmirrors : Mirrors (id : Machine → Machine) :=
    ⟨fun _ _ => rfl, fun _ _ _ => rfl, fun _ => rfl⟩
  let world : World Machine := ⟨{ limits := {} }, {}, {}⟩
  have hsettled : Settled Settings.keyed.spec world.cache := settled_empty _ _
  have hfollows : world.Ends ((Settings.keyed.coordinator Machine).writeBatch
      { cleaner := .start 0 0 } mishaps) _ :=
    ends_writeBatch hmirrors hsettled { cleaner := .start 0 0 } mishaps
  exact hfollows.result.trans (plan_mishaps {})

/-- The batch fails, and the record without a table stays in the log. -/
theorem writeBatch_leavesErrors_mishaps :
    ((Settings.keyed.coordinator Machine).Logs (.session Machine) (fun world => world.1.errors) ∧
      (({}, {}) : Session × Machine).1.errors.policy = .toError ∧
      ((Runner.session Machine).run
        ((Settings.keyed.coordinator Machine).writeBatch { cleaner := .start 0 0 } mishaps
          { limits := {} }) ({}, {})).1.1.1 = .error mishap) ∧
    ((Runner.session Machine).run
      ((Settings.keyed.coordinator Machine).writeBatch { cleaner := .start 0 0 } mishaps
        { limits := {} }) ({}, {})).2.1.errors.records.toList =
      [.ofCause ⟨"1", .obj [], []⟩ (.evaluation (.missingField "table"))] := by
  refine ⟨⟨logs_coordinator _, rfl, writeBatch_mishaps⟩, ?_⟩
  obtain ⟨fates, hleaves⟩ := writeBatch_leavesErrors (logs_coordinator Settings.keyed)
    { cleaner := .start 0 0 } mishaps { limits := {} } rfl writeBatch_mishaps
  exact hleaves.rollback rfl

end JsonLines

end TableRouting
