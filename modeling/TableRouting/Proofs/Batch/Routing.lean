import TableRouting.Proofs.Batch.Attribution
import TableRouting.Proofs.Batch.Audit
import TableRouting.Proofs.JsonLines.Sources
import TableRouting.Proofs.Metrics.AnsweredBatches

/-!
# Error routing is exact

A batch that is committed leaves just the error records that its outcome counts: those of
the records that did not resolve, and then, table by table, those of the records that were
given up or rejected.  This is about writers that reject records of their group only, each
once, and that account for all others.
-/

namespace TableRouting

variable {m : Type → Type} {σ κ ω ρ : Type}

def StoreError.code : StoreError → String
  | .unsupportedOperation _ => "TABSINK_04"
  | _ => "TABSINK_03"

def StoreError.record (e : StoreError) (table : String) (record : Record) : ErrorRecord :=
  { record, code := e.code, message := e.message, table := some table }

def Coordinator.unresolvedErrors (coordinator : Coordinator m κ ω) (batch : List Record) :
    List ErrorRecord :=
  (coordinator.unresolved batch).map fun failure =>
    { record := failure.1, code := "TABSINK_01", message := failure.2.message, table := none }

/-- The error records of a group: those of all its records if there was no writer or the
writer failed, and those of the rejected records, in the order of the report, if not. -/
def Fate.errors (fate : Fate ρ) : List ErrorRecord :=
  match fate.ending with
  | .finished report _ => report.failures.filterMap fun failure =>
      fate.group.2[failure.index]?.map (failure.error.record fate.group.1)
  | .crashed e _ | .refused e => fate.group.2.map (e.record fate.group.1)
  | .unbuilt reason => fate.group.2.map fun record =>
      { record
        code := "TABSINK_02"
        message := (Coordinator.constructionError fate.group.1 reason).message
        table := some fate.group.1 }

/-- A group that was written has a report that conforms. -/
def Fate.Conforms (fate : Fate ρ) : Prop :=
  ∀ report rows, fate.ending = .finished report rows → report.Conforms fate.group.2.length

/-- The failure of a group without a writer names its table. -/
def Fate.Named (fate : Fate ρ) : Prop :=
  ∀ reason, fate.ending = .unbuilt reason → reason.Names fate.group.1

theorem ofCause_store (record : Record) (table : String) (e : StoreError) :
    ErrorRecord.ofCause record (.store table e) = e.record table record := by
  cases e <;> rfl

namespace Fate

variable {fate : Fate ρ}

theorem errors_eq (hnamed : fate.Named) : errorRecords fate.failures = fate.errors := by
  obtain ⟨group, ending⟩ := fate
  cases ending with
  | finished report rows =>
      change List.map _ (List.filterMap _ report.failures) = _
      rw [List.map_filterMap]
      apply List.filterMap_congr
      intro failure _
      rw [Option.map_map]
      congr 1
      funext record
      exact ofCause_store record group.1 failure.error
  | crashed e rows =>
      rw [errorRecords, failures, List.map_map]
      exact List.map_congr_left fun record _ => ofCause_store record group.1 e
  | refused e =>
      rw [errorRecords, failures, List.map_map]
      exact List.map_congr_left fun record _ => ofCause_store record group.1 e
  | unbuilt reason =>
      have htable : (Coordinator.constructionError group.1 reason).table = group.1 :=
        hnamed reason rfl
      rw [errorRecords, failures, List.map_map]
      apply List.map_congr_left
      intro record _
      change ErrorRecord.mk record _ _ (some (Coordinator.constructionError _ _).table) none = _
      rw [htable]
      rfl

/-- Every record of a group is written, discarded or errored, and each errored one has its
error record. -/
structure Counted (fate : Fate ρ) : Prop where
  total : fate.outcome.written + fate.outcome.discarded + fate.outcome.errored =
    fate.group.2.length
  errored : fate.outcome.errored = fate.errors.length

theorem errored_eq (fate : Fate ρ) : fate.outcome.errored = fate.failures.length := by
  obtain ⟨group, ending⟩ := fate
  cases ending with
  | finished report rows => rfl
  | crashed e rows => exact (List.length_map _).symm
  | refused e => exact (List.length_map _).symm
  | unbuilt reason => exact (List.length_map _).symm

theorem counted (hconforms : fate.Conforms) : fate.Counted := by
  obtain ⟨group, ending⟩ := fate
  cases ending with
  | finished report rows =>
      obtain ⟨hindex, -, hcount⟩ := hconforms report rows rfl
      have hnamed : (Fate.mk group (.finished report rows)).Named := by rintro _ ⟨⟩
      refine ⟨?_, ?_⟩
      · rw [← hcount, ← JsonLines.length_reported group.1 hindex]
        rfl
      · rw [← errors_eq hnamed, errorRecords, List.length_map]
        exact errored_eq _
  | crashed e rows => exact ⟨Nat.zero_add _, (List.length_map _).symm⟩
  | refused e => exact ⟨Nat.zero_add _, (List.length_map _).symm⟩
  | unbuilt reason => exact ⟨Nat.zero_add _, (List.length_map _).symm⟩

/-- A group of which nothing is routed was written. -/
theorem finished_of_failures (hconforms : fate.Conforms) (hgroup : fate.group.2 ≠ [])
    (hnone : fate.failures = []) : ∃ report rows, fate.ending = .finished report rows ∧
      report.failures = [] ∧ report.written + report.discarded = fate.group.2.length := by
  obtain ⟨group, ending⟩ := fate
  cases ending with
  | finished report rows =>
      obtain ⟨hindex, -, hcount⟩ := hconforms report rows rfl
      have hlength := JsonLines.length_reported group.1 hindex
      have hreported : JsonLines.reported group.1 group.2 report.failures = [] := hnone
      rw [hreported] at hlength
      have hfailures : report.failures = [] := List.eq_nil_of_length_eq_zero hlength.symm
      rw [hfailures] at hcount
      exact ⟨report, rows, rfl, hfailures, hcount⟩
  | crashed e rows => exact absurd (List.map_eq_nil_iff.mp hnone) hgroup
  | refused e => exact absurd (List.map_eq_nil_iff.mp hnone) hgroup
  | unbuilt reason => exact absurd (List.map_eq_nil_iff.mp hnone) hgroup

end Fate

/-- What error routing comes to in a batch that was committed, given the fates of its groups
and the error records before and after the batch. -/
structure RoutesExactly [Monad m] (coordinator : Coordinator m κ ω) (runner : Runner m σ)
    (batch : List Record) (cache : WriterCache ω) (world : σ) (policy : OnRecordError)
    (outcome : WriteOutcome) (fates : List (Fate ρ)) (before after : List ErrorRecord) : Prop where
  /-- Every table has its fate, in the order in which the tables first appear. -/
  groups_eq : fates.map Fate.group = coordinator.groups batch
  /-- Every table meets its fate when those before it are through: its writer was looked up and
  has answered, or was released before it could, or was not to be had for this reason. -/
  meets : coordinator.MeetsFrom runner (coordinator.firstTurn runner batch cache world) fates
  outcome_eq : outcome =
    .ofTables (coordinator.unresolved batch).length (fates.map Fate.outcome)
  conforms : ∀ fate ∈ fates, fate.Conforms
  counted : ∀ fate ∈ fates, fate.Counted
  total : outcome.written + outcome.discarded + outcome.errored = batch.length
  /-- The records that did not resolve come first, then the tables one by one. -/
  toError : policy = .toError →
    after = before ++ coordinator.unresolvedErrors batch ++ fates.flatMap Fate.errors
  unchanged : policy ≠ .toError → after = before
  /-- With rollback on error, only records that did not resolve are errored, and each of the
  others is written or discarded. -/
  rollback : coordinator.rollbackOnError = true →
    outcome.errored = (coordinator.unresolved batch).length ∧
      ∀ fate ∈ fates, fate.errors = [] ∧ ∃ report rows, fate.ending = .finished report rows ∧
        report.failures = [] ∧ report.written + report.discarded = fate.group.2.length
  stop : policy = .stopPipeline → outcome.errored = 0

theorem errored_of_quiet {fates : List (Fate ρ)} (hquiet : ∀ fate ∈ fates, fate.failures = [])
    (unresolved : Nat) :
    (WriteOutcome.ofTables unresolved (fates.map Fate.outcome)).errored = unresolved := by
  have hnone : ((fates.map Fate.outcome).map TableOutcome.errored).sum = 0 := by
    rw [List.map_map, List.sum_eq_zero_iff_forall_eq_nat]
    intro errored herrored
    obtain ⟨fate, hfate, rfl⟩ := List.mem_map.mp herrored
    rw [Function.comp_apply, Fate.errored_eq, hquiet fate hfate, List.length_nil]
  exact congrArg (unresolved + ·) hnone

/-- Failures that would have failed the batch are none. -/
theorem eq_nil_of_stops {failures : List (Record × FailureCause)}
    (hstops : ∀ entry ∈ (TrailEntry.routedAll failures : List (TrailEntry ρ)),
      entry.routing? = none ∨ entry.isStop = true) : failures = [] := by
  cases failures with
  | nil => rfl
  | cons failure rest =>
      rcases hstops _ List.mem_cons_self with hnone | hstop
      · cases hnone
      · cases hstop

theorem total_of_counted {fates : List (Fate ρ)} (hcounted : ∀ fate ∈ fates, fate.Counted)
    (unresolved : Nat) :
    (WriteOutcome.ofTables unresolved (fates.map Fate.outcome)).written +
        (WriteOutcome.ofTables unresolved (fates.map Fate.outcome)).discarded +
        (WriteOutcome.ofTables unresolved (fates.map Fate.outcome)).errored =
      ((fates.map Fate.group).map fun group => group.2.length).sum + unresolved := by
  induction fates with
  | nil => simp [WriteOutcome.ofTables]
  | cons fate rest ih =>
      obtain ⟨hfirst, hrest⟩ := List.forall_mem_cons.mp hcounted
      have htotal := hfirst.total
      have hlater := ih hrest
      simp only [WriteOutcome.ofTables, List.map_cons, List.foldr_cons, List.sum_cons] at hlater ⊢
      omega

section

variable {coordinator : Coordinator m κ ω} {batch : List Record} {log after : ErrorLog}
  {fates : List (Fate ρ)} {kept : List ρ}

def committedEntries (coordinator : Coordinator m κ ω) (batch : List Record)
    (fates : List (Fate ρ)) (kept : List ρ) : List (TrailEntry ρ) :=
  TrailEntry.routedAll (coordinator.unroutable batch) ++
    (fates.flatMap Fate.entries ++ commitEntries fates kept)

theorem mem_committedEntries {fate : Fate ρ} (hfate : fate ∈ fates) {entry : TrailEntry ρ}
    (hentry : entry ∈ fate.entries) : entry ∈ committedEntries coordinator batch fates kept :=
  List.mem_append_right _ (List.mem_append_left _ (List.mem_flatMap.mpr ⟨fate, hfate, hentry⟩))

theorem conforms_of_conforming
    (hconforming : Conforming (committedEntries coordinator batch fates kept)) :
    ∀ fate ∈ fates, fate.Conforms := by
  intro fate hfate report rows hending
  apply hconforming fate.group.2 report rows
  apply mem_committedEntries hfate
  rw [Fate.entries, Fate.writes, hending]
  exact List.mem_append_left _ (List.mem_singleton_self _)

/-- Under a policy that stops at the first failure, nothing that is committed is routed. -/
theorem quiet_of_stops
    (hstops : ∀ entry ∈ committedEntries coordinator batch fates kept,
      entry.routing? = none ∨ entry.isStop = true) :
    coordinator.unroutable batch = [] ∧ ∀ fate ∈ fates, fate.failures = [] := by
  refine ⟨eq_nil_of_stops fun entry hentry => hstops entry (List.mem_append_left _ hentry), ?_⟩
  intro fate hfate
  exact eq_nil_of_stops fun entry hentry =>
    hstops entry (mem_committedEntries hfate (List.mem_append_right _ hentry))

/-- The failures of the entries are routed as they come. -/
theorem records_of_takes
    (htakes : log.Takes (committedEntries coordinator batch fates kept) after) :
    after.records.toList = log.records.toList ++
      (errorRecords (coordinator.unroutable batch) ++
        errorRecords (fates.flatMap Fate.failures)) := by
  have hcommit : Halts (commitEntries fates kept) := by
    refine .inr ?_
    rw [commitEntries]
    split <;> rfl
  rw [htakes.records, ← errorRecords_append, ← filterMap_failed _ hcommit htakes.patient]
  rfl

/-- Among records that are attributed to the tables that they resolve to, every group without
a writer is given up with its own table. -/
theorem named_of_fair (hgroups : fates.map Fate.group = coordinator.groups batch)
    (hfair : coordinator.Fair log.records.toList after)
    (htakes : log.Takes (committedEntries coordinator batch fates kept) after) :
    ∀ fate ∈ fates, fate.Named := by
  rintro ⟨group, ending⟩ hfate reason hending
  obtain rfl : ending = .unbuilt reason := hending
  have hgroup : group ∈ coordinator.groups batch := hgroups ▸ List.mem_map_of_mem hfate
  obtain ⟨record, hrecord⟩ := List.exists_mem_of_ne_nil _ (Grouping.group_ne_nil hgroup)
  obtain ⟨more, hmore, hattributes⟩ := hfair.records
  -- The log has gained the error records of the failures, and one with the table that the
  -- failure names is among them.
  have hsame := List.append_cancel_left (hmore.symm.trans (records_of_takes htakes))
  let cause : FailureCause := .construction (Coordinator.constructionError group.1 reason)
  have hfailure : (record, cause) ∈ fates.flatMap Fate.failures :=
    List.mem_flatMap.mpr ⟨_, hfate, List.mem_map_of_mem hrecord⟩
  have herror := List.mem_append_right (errorRecords (coordinator.unroutable batch))
    (List.mem_map_of_mem (f := fun failure => ErrorRecord.ofCause failure.1 failure.2) hfailure)
  obtain ⟨table, htable, hresolve⟩ := hattributes _ (hsame ▸ herror) rfl
  have hown := (Coordinator.resolve_of_mem_groups hgroup record hrecord).symm.trans hresolve
  exact (Option.some.inj htable).trans (Except.ok.inj hown).symm

theorem routesExactly [Monad m] {runner : Runner m σ} {cache : WriterCache ω} {world : σ}
    (hgroups : fates.map Fate.group = coordinator.groups batch)
    (hmeets : coordinator.MeetsFrom runner (coordinator.firstTurn runner batch cache world) fates)
    (hclean : Clean coordinator fates)
    (hconforming : Conforming (committedEntries coordinator batch fates kept))
    (hfollows : log.Follows (committedEntries coordinator batch fates kept) after)
    (hfair : log.policy = .toError → coordinator.Fair log.records.toList after) :
    RoutesExactly coordinator runner batch cache world log.policy
      (.ofTables (coordinator.unresolved batch).length (fates.map Fate.outcome)) fates
      log.records.toList after.records.toList := by
  have hconforms := conforms_of_conforming hconforming
  have hcounted (fate : Fate ρ) (hfate : fate ∈ fates) : fate.Counted :=
    Fate.counted (hconforms fate hfate)
  refine ⟨hgroups, hmeets, rfl, hconforms, hcounted, ?_, ?_, ?_, ?_, ?_⟩
  · rw [total_of_counted hcounted, hgroups, Coordinator.groups, Coordinator.groupByTable,
      Grouping.sum_length_group, length_resolved_add]
  · intro hpolicy
    have htakes := hfollows.takes hpolicy
    have hnamed := named_of_fair hgroups (hfair hpolicy) htakes
    have herrors : errorRecords (fates.flatMap Fate.failures) = fates.flatMap Fate.errors := by
      rw [errorRecords, List.map_flatMap]
      exact List.flatMap_congr fun fate hfate => Fate.errors_eq (hnamed fate hfate)
    have hunresolved : errorRecords (coordinator.unroutable batch) =
        coordinator.unresolvedErrors batch := by
      rw [errorRecords, Coordinator.unroutable, List.map_map]
      rfl
    rw [records_of_takes htakes, herrors, hunresolved, List.append_assoc]
  · exact fun hpolicy => congrArg Array.toList (hfollows.keeps hpolicy)
  · intro hrollback
    have hquiet := hclean hrollback
    refine ⟨errored_of_quiet hquiet _, fun fate hfate => ⟨?_, ?_⟩⟩
    · apply List.eq_nil_of_length_eq_zero
      rw [← (hcounted fate hfate).errored, Fate.errored_eq, hquiet fate hfate, List.length_nil]
    · have hgroup : fate.group ∈ coordinator.groups batch := hgroups ▸ List.mem_map_of_mem hfate
      exact Fate.finished_of_failures (hconforms fate hfate) (Grouping.group_ne_nil hgroup)
        (hquiet fate hfate)
  · intro hpolicy
    obtain ⟨hunroutable, hquiet⟩ := quiet_of_stops (hfollows.stops hpolicy)
    rw [errored_of_quiet hquiet, List.length_eq_zero_iff]
    exact List.map_eq_nil_iff.mp hunroutable

end

section

variable [Monad m] [LawfulMonad m] {sink : Sink m κ ω} {rows : κ → List ρ} {trail : Trail m σ ρ}
  {errors : σ → ErrorLog}

theorem Sink.leavesFrom_writeBatch (hopen : sink.isOpen = true)
    (htracked : sink.coordinator.Tracked rows trail) (batch : List Record) (cache : WriterCache ω)
    (world : σ) :
    trail.LeavesFrom cache world (sink.writeBatch batch) fun answer entries => ∀ outcome,
      answer.1 = .ok outcome →
        BatchTrail sink.coordinator trail.toRunner rows batch cache world (.ok outcome)
          entries := by
  rw [Sink.writeBatch, if_pos hopen]
  apply (TableRouting.leavesFrom_writeBatch htracked sink.books batch cache world).bind
  rintro ⟨result, books⟩ after later entries _ htrail
  refine Trail.leavesIn_pure ?_ after later
  intro outcome hok
  cases result with
  | error e => cases hok
  | ok written =>
      obtain rfl : written = outcome := Except.ok.inj hok
      rwa [List.append_nil]

end

namespace JsonLines

namespace TableWriter

theorem pairwise_index_failuresFrom (index : Nat) (extracted : List Extracted) :
    ((failuresFrom index extracted).map RecordFailure.index).Pairwise (· < ·) := by
  induction extracted generalizing index with
  | nil => exact List.Pairwise.nil
  | cons first rest ih =>
      cases first with
      | ok row => exact ih (index + 1)
      | error e =>
          refine List.pairwise_cons.mpr ⟨fun later hlater => ?_, ih (index + 1)⟩
          obtain ⟨failure, hfailure, rfl⟩ := List.mem_map.mp hlater
          obtain ⟨offset, hindex, -⟩ := mem_failuresFrom hfailure
          have hlt : index < failure.index := by omega
          exact hlt

/-- A writer reports no record twice. -/
theorem nodup_index_report (spec : WriterSpec) (records : List Record) :
    ((report spec records).failures.map RecordFailure.index).Nodup := by
  rw [report, reportOn]
  cases spec.mode with
  | singleRow => exact (pairwise_index_failuresFrom 0 _).imp Nat.ne_of_lt
  | multiRow limit =>
      have hsublist := (List.filter_sublist (p := fun chunk => !isClean chunk)
        (l := chunks spec (records.map (Row.ofRecord spec)))).flatten.map Prod.fst
      rw [map_index_failures]
      exact ((pairwise_chunks spec _).sublist hsublist).imp Nat.ne_of_lt

theorem conforms_report (spec : WriterSpec) (records : List Record) :
    (report spec records).Conforms records.length where
  index_lt _ hfailure := index_lt_of_mem_report hfailure
  once := nodup_index_report spec records
  count := count_report spec records

/-- A writer is refused for its table. -/
theorem table_of_create_error {table : String} {spec : WriterSpec} {e : ConstructionError}
    (hcreate : create table spec = .error e) : e.table = table := by
  rw [create] at hcreate
  split at hcreate
  · rw [← Except.error.inj hcreate]
  · split at hcreate
    · rw [← Except.error.inj hcreate]
    · cases hcreate

end TableWriter

variable {S : Type} [Host (StateM S)]

/-- The writers of the JSON-lines store conform, whatever state they are in. -/
theorem conforms_store (root : String) (spec : WriterSpec) :
    (store root spec : Store (SessionT (StateM S)) Connection TableWriter).Conforms
      (.session S) := by
  intro writer records connection world report hreport
  change (writer.write connection records).1 = .ok report at hreport
  rw [TableWriter.write] at hreport
  split at hreport
  · cases hreport
  · rw [TableWriter.writeOpen_eq] at hreport
    rw [← Except.ok.inj hreport]
    exact TableWriter.conforms_report writer.spec records

/-- The JSON-lines store leaves the cache alone, and refuses a table by its name. -/
theorem upright_store (root : String) (spec : WriterSpec) :
    (store root spec : Store (SessionT (StateM S)) Connection TableWriter).toWorkshop.Upright
      (.session S) where
  now cache _ _ := WriterCache.Continues.refl cache
  create table cache world _ := by
    refine ⟨WriterCache.Continues.refl cache, fun e he => ?_⟩
    cases hcreate : TableWriter.create table spec with
    | ok writer =>
        simp only [store, hcreate] at he
        cases he
    | error refusal =>
        simp only [store, hcreate] at he
        cases he
        exact TableWriter.table_of_create_error hcreate
  close _ cache _ _ := WriterCache.Continues.refl cache

def Settings.lenient : Settings := { Settings.keyed with rollbackOnError := false }

def lenientSink : Sink (SessionT (StateM Machine)) Connection TableWriter where
  coordinator := Settings.lenient.coordinator Machine
  books := { cleaner := .start 0 0 }

/-- One record names no table, one has no field `id`, and one names a table that cannot be. -/
def assorted : List Record := mishaps ++ [⟨"3", .obj [("table", .str "..")], []⟩]

def assortedOutcome : WriteOutcome where
  errored := 3
  tables := [⟨"a", 0, 1, 0⟩, ⟨"..", 0, 1, 0⟩]

/-- No line waits for the commit. -/
theorem planned_assorted : ∃ plans, Settings.lenient.planned? assorted false {} = some plans ∧
    Settings.lenient.pending plans = [] ∧
      plans.map GroupPlan.outcome = assortedOutcome.tables := by
  have hresolved : Settings.lenient.resolved assorted =
      [("a", ⟨"2", .obj [("table", .str "a")], []⟩),
        ("..", ⟨"3", .obj [("table", .str "..")], []⟩)] := rfl
  rw [Settings.planned?, Settings.groups, hresolved, Grouping.group_eq]
  exact ⟨_, rfl, rfl, rfl⟩

theorem writeBatch_assorted :
    ((Runner.session Machine).call lenientSink assorted { limits := {} } ({}, {})).1 =
      .ok assortedOutcome := by
  have hmirrors : Mirrors (id : Machine → Machine) :=
    ⟨fun _ _ => rfl, fun _ _ _ => rfl, fun _ => rfl⟩
  let world : World Machine := ⟨{ limits := {} }, {}, {}⟩
  have hsettled : Settled Settings.lenient.spec world.cache := settled_empty _ _
  have hfollows : world.Ends ((Settings.lenient.coordinator Machine).writeBatch
      { cleaner := .start 0 0 } assorted) _ :=
    ends_writeBatch hmirrors hsettled { cleaner := .start 0 0 } assorted
  obtain ⟨plans, hplanned, hpending, houtcomes⟩ := planned_assorted
  have hcommit : (Settings.lenient.commit plans ({} : Machine)).1 = .ok () := by
    have hnone : Settings.lenient.waiting plans = [] := by
      simp [Settings.waiting, hpending, Connection.byFile, Grouping.group_eq]
    rw [Settings.commit, ← Settings.waiting, hnone]
    rfl
  have hplan := (Settings.writeBatch_of_planned hplanned ({} : Machine)).2
  rw [hcommit, houtcomes] at hplan
  exact congrArg (Except.mapError SinkError.write) (hfollows.result.trans hplan)

end JsonLines

end TableRouting
