import TableRouting.Proofs.Batch.Conservation
import TableRouting.Proofs.Regrouping

/-!
# Verdicts on records

A sink that writes every row as a line of its own, and goes on after a failure, judges
each record by itself: the record gives a line, is dropped or fails, whatever batch it is
in.  What a batch leaves is put together from the verdicts on its records.  The lines of
a table are in the order of the records; the failures are routed table by table, so that
of them only the multiset is that of the records.
-/

open scoped List

namespace TableRouting

namespace ErrorLog

/-- What routing failures leaves, under a policy that fails no batch. -/
def keep (log : ErrorLog) (failures : List (Record × FailureCause)) : ErrorLog :=
  if log.policy = .toError then
    { log with records := log.records ++ (errorRecords failures).toArray }
  else log

variable (log : ErrorLog)

@[simp] theorem keep_nil : log.keep [] = log := by
  simp [keep, errorRecords]

@[simp] theorem policy_keep (failures : List (Record × FailureCause)) :
    (log.keep failures).policy = log.policy := by
  rw [keep]
  split <;> rfl

theorem keep_append (first second : List (Record × FailureCause)) :
    (log.keep first).keep second = log.keep (first ++ second) := by
  by_cases hpolicy : log.policy = .toError
  · simp [keep, hpolicy, errorRecords_append]
  · simp [keep, hpolicy]

/-- The order of failures does not tell which of them are kept. -/
theorem keep_perm {first second : List (Record × FailureCause)} (hperm : first.Perm second) :
    (log.keep first).records.toList.Perm (log.keep second).records.toList := by
  by_cases hpolicy : log.policy = .toError
  · simp only [keep, hpolicy, if_true, Array.toList_append]
    exact (hperm.map _).append_left _
  · simp [keep, hpolicy]

variable {log}

theorem route_of_tolerant (hpolicy : log.policy ≠ .stopPipeline) (record : Record)
    (cause : FailureCause) : log.route record cause = (.ok (), log.keep [(record, cause)]) := by
  rw [route, keep]
  cases hkind : log.policy with
  | discard => rfl
  | toError => simp [errorRecords]
  | stopPipeline => exact absurd hkind hpolicy

theorem routeEach_of_tolerant (hpolicy : log.policy ≠ .stopPipeline)
    (failures : List (Record × FailureCause)) :
    log.routeEach failures = (.ok (), log.keep failures) := by
  induction failures generalizing log with
  | nil => rw [routeEach, keep_nil]
  | cons failure rest ih =>
      have hrest : (log.keep [failure]).policy ≠ .stopPipeline := by rwa [policy_keep]
      rw [routeEach, route_of_tolerant hpolicy]
      simp only
      rw [ih hrest, keep_append]
      rfl

end ErrorLog

namespace JsonLines

/-- What becomes of a record by itself. -/
inductive Verdict where
  | written (line : TableLine)
  | dropped
  | failed (cause : FailureCause)

namespace Verdict

def line? : Verdict → Option TableLine
  | written line => some line
  | _ => none

def cause? : Verdict → Option FailureCause
  | failed cause => some cause
  | _ => none

def isDropped : Verdict → Bool
  | dropped => true
  | _ => false

end Verdict

namespace Settings

def verdictIn (settings : Settings) (table : String) (record : Record) : Verdict :=
  match TableWriter.create table settings.spec with
  | .error e => .failed (.construction e)
  | .ok _ =>
    match Row.ofRecord settings.spec record with
    | .error e => .failed (.store table e)
    | .ok none => .dropped
    | .ok (some row) => .written (lineOf settings.spec table (row.key, [row.values]))

def verdict (settings : Settings) (record : Record) : Verdict :=
  match settings.resolve record with
  | .error e => .failed (.evaluation e)
  | .ok table => settings.verdictIn table record

def linesOf (settings : Settings) (records : List Record) : List TableLine :=
  records.filterMap fun record => (settings.verdict record).line?

def failuresOf (settings : Settings) (records : List Record) : List (Record × FailureCause) :=
  records.filterMap fun record => (settings.verdict record).cause?.map fun cause => (record, cause)

def droppedOf (settings : Settings) (records : List Record) : Nat :=
  records.countP fun record => (settings.verdict record).isDropped

variable {settings : Settings}

theorem verdict_of_resolve {record : Record} {table : String}
    (hresolve : settings.resolve record = .ok table) :
    settings.verdict record = settings.verdictIn table record := by
  rw [verdict, hresolve]

/-- A line is for the table of its record. -/
theorem table_of_verdictIn {table : String} {record : Record} {line : TableLine}
    (hline : (settings.verdictIn table record).line? = some line) : line.table = table := by
  rw [verdictIn] at hline
  split at hline
  · simp [Verdict.line?] at hline
  · split at hline
    · simp [Verdict.line?] at hline
    · simp [Verdict.line?] at hline
    · rw [← Option.some.inj hline]
      rfl

/-- There is one verdict on every record. -/
theorem count_verdicts (settings : Settings) (records : List Record) :
    (settings.linesOf records).length + (settings.failuresOf records).length +
      settings.droppedOf records = records.length := by
  induction records with
  | nil => rfl
  | cons record rest ih =>
      rw [linesOf, failuresOf, droppedOf] at ih ⊢
      rw [List.filterMap_cons, List.filterMap_cons, List.countP_cons, List.length_cons, ← ih]
      cases settings.verdict record with
      | written line => simp [Verdict.line?, Verdict.cause?, Verdict.isDropped]; omega
      | dropped => simp [Verdict.line?, Verdict.cause?, Verdict.isDropped]; omega
      | failed cause => simp [Verdict.line?, Verdict.cause?, Verdict.isDropped]; omega

/-- A sink with these settings writes every row as a line of its own, and goes on after a
failure. -/
structure RowByRow (settings : Settings) : Prop where
  single : settings.spec.mode = .singleRow
  proceeds : settings.rollbackOnError = false

def planOf (settings : Settings) (group : Group) : GroupPlan :=
  match TableWriter.create group.1 settings.spec with
  | .error e => .ofRefusal group e
  | .ok _ => .ofReport settings.spec group

theorem RowByRow.planGroup (hrows : settings.RowByRow) (group : Group) :
    settings.planGroup group = .ok (settings.planOf group) := by
  simp only [Settings.planGroup, planOf, fatal?, hrows.proceeds, Bool.false_eq_true, if_false]
  cases TableWriter.create group.1 settings.spec <;> rfl

theorem table_planOf (settings : Settings) (group : Group) :
    (settings.planOf group).outcome.table = group.1 := by
  rw [planOf]
  split <;> rfl

theorem errored_planOf (settings : Settings) (group : Group) :
    (settings.planOf group).outcome.errored = (settings.planOf group).failures.length := by
  rw [planOf]
  split
  · exact (List.length_map _).symm
  · rfl

end Settings

/-- The failures among what records give are reported with their records. -/
theorem reported_failuresFrom (table : String) (extract : Record → TableWriter.Extracted)
    (before records : List Record) :
    reported table (before ++ records)
        (TableWriter.failuresFrom before.length (records.map extract)) =
      records.filterMap fun record =>
        match extract record with
        | .error e => some (record, .store table e)
        | .ok _ => none := by
  induction records generalizing before with
  | nil => rfl
  | cons record rest ih =>
      have hrest := ih (before ++ [record])
      rw [List.append_assoc, List.length_append] at hrest
      rw [List.map_cons, List.filterMap_cons, ← hrest]
      cases hextract : extract record with
      | error e =>
          rw [TableWriter.failuresFrom, reported, List.filterMap_cons]
          simp [reported]
      | ok row => rfl

theorem lines_single {spec : WriterSpec} (hsingle : spec.mode = .singleRow) (table : String)
    (records : List Record) :
    TableWriter.lines spec table records =
      (TableWriter.rowsOf (records.map (Row.ofRecord spec))).map fun row =>
        lineOf spec table (row.key, [row.values]) := by
  rw [TableWriter.lines, TableWriter.statementsFor]
  simp only [hsingle, List.map_map]
  rfl

namespace Settings

variable {settings : Settings}

theorem RowByRow.written_planOf (hrows : settings.RowByRow) (group : Group) :
    (settings.planOf group).outcome.written = (settings.planOf group).lines.length := by
  rw [planOf]
  split
  · rfl
  · simp only [GroupPlan.ofReport, TableWriter.report, TableWriter.reportOn, hrows.single,
      lines_single hrows.single, List.length_map]

/-- Every record of a group resolves to the table of the group. -/
def Resolves (settings : Settings) (group : Group) : Prop :=
  ∀ record ∈ group.2, settings.resolve record = .ok group.1

variable {group : Group}

theorem RowByRow.failures_planOf (hrows : settings.RowByRow) (hresolves : settings.Resolves group) :
    (settings.planOf group).failures = settings.failuresOf group.2 := by
  have hverdicts : settings.failuresOf group.2 = group.2.filterMap fun record =>
      (settings.verdictIn group.1 record).cause?.map fun cause => (record, cause) := by
    apply List.filterMap_congr
    intro record hrecord
    rw [verdict_of_resolve (hresolves record hrecord)]
  rw [hverdicts, planOf]
  cases hcreate : TableWriter.create group.1 settings.spec with
  | error e =>
      simp only [GroupPlan.ofRefusal, verdictIn, hcreate, Verdict.cause?, Option.map_some]
      exact (congrFun List.filterMap_eq_map' group.2).symm
  | ok writer =>
      have hreported := reported_failuresFrom group.1 (Row.ofRecord settings.spec) [] group.2
      simp only [GroupPlan.ofReport, TableWriter.report, TableWriter.reportOn, hrows.single]
      rw [List.nil_append, List.length_nil] at hreported
      rw [hreported]
      apply List.filterMap_congr
      intro record _
      rw [verdictIn, hcreate]
      simp only
      rcases Row.ofRecord settings.spec record with e | _ | row <;> rfl

theorem RowByRow.lines_planOf (hrows : settings.RowByRow) (hresolves : settings.Resolves group) :
    (settings.planOf group).lines = settings.linesOf group.2 := by
  have hverdicts : settings.linesOf group.2 = group.2.filterMap fun record =>
      (settings.verdictIn group.1 record).line? := by
    apply List.filterMap_congr
    intro record hrecord
    rw [verdict_of_resolve (hresolves record hrecord)]
  rw [hverdicts, planOf]
  cases hcreate : TableWriter.create group.1 settings.spec with
  | error e =>
      simp only [GroupPlan.ofRefusal, verdictIn, hcreate, Verdict.line?]
      simp
  | ok writer =>
      simp only [GroupPlan.ofReport, lines_single hrows.single, TableWriter.rowsOf]
      rw [List.filterMap_map, List.map_filterMap]
      apply List.filterMap_congr
      intro record _
      rw [verdictIn, hcreate]
      simp only [Function.comp_apply]
      rcases Row.ofRecord settings.spec record with e | _ | row <;> rfl

variable {batch : List Record} {log : ErrorLog}

theorem mem_of_mem_resolved {entry : String × Record} (hentry : entry ∈ settings.resolved batch) :
    entry.2 ∈ batch ∧ settings.resolve entry.2 = .ok entry.1 := by
  obtain ⟨record, hrecord, hgiven⟩ := List.mem_filterMap.mp hentry
  cases hresolve : settings.resolve record with
  | error e => simp [hresolve] at hgiven
  | ok table =>
      simp only [hresolve] at hgiven
      rw [← Option.some.inj hgiven]
      exact ⟨hrecord, hresolve⟩

theorem resolves_of_mem_groups (hgroup : group ∈ settings.groups batch) :
    settings.Resolves group := by
  obtain ⟨-, hvalues⟩ := Grouping.mem_group.mp hgroup
  intro record hrecord
  rw [hvalues] at hrecord
  obtain ⟨entry, hentry, rfl⟩ := List.mem_map.mp hrecord
  obtain ⟨hresolved, htable⟩ := List.mem_filter.mp hentry
  rw [(mem_of_mem_resolved hresolved).2, eq_of_beq htable]

/-- The plans of a batch that only its commit can fail. -/
def plansOf (settings : Settings) (batch : List Record) : List GroupPlan :=
  (settings.groups batch).map settings.planOf

def routedOf (settings : Settings) (batch : List Record) : List (Record × FailureCause) :=
  settings.unresolved batch ++ (settings.plansOf batch).flatMap GroupPlan.failures

theorem RowByRow.runGroups (hrows : settings.RowByRow) (hpolicy : log.policy ≠ .stopPipeline)
    (groups : List Group) :
    settings.runGroups groups log =
      (.ok (groups.map settings.planOf),
        log.keep ((groups.map settings.planOf).flatMap GroupPlan.failures)) := by
  induction groups generalizing log with
  | nil => rw [Settings.runGroups, List.map_nil, List.flatMap_nil, ErrorLog.keep_nil]
  | cons group rest ih =>
      have hgroup : settings.runGroup group log =
          (.ok (settings.planOf group), log.keep (settings.planOf group).failures) := by
        simp only [runGroup, hrows.planGroup, ErrorLog.routeEach_of_tolerant hpolicy]
        rfl
      have hrest : (log.keep (settings.planOf group).failures).policy ≠ .stopPipeline := by
        rwa [ErrorLog.policy_keep]
      rw [Settings.runGroups, hgroup]
      simp only
      rw [ih hrest, ErrorLog.keep_append]
      rfl

/-- Nothing but its commit fails a batch on an open source. -/
theorem RowByRow.planned? (hrows : settings.RowByRow) (hpolicy : log.policy ≠ .stopPipeline)
    (batch : List Record) :
    settings.planned? batch false log = some (settings.plansOf batch) := by
  have hrest : (log.keep (settings.unresolved batch)).policy ≠ .stopPipeline := by
    rwa [ErrorLog.policy_keep]
  rw [Settings.planned?, ErrorLog.routeEach_of_tolerant hpolicy]
  simp only [Bool.false_eq_true, false_and, if_false]
  rw [hrows.runGroups hrest]
  rfl

/-- A batch keeps its failures, whether it can be committed or not. -/
theorem RowByRow.log_writeBatch {σ : Type} [Host (StateM σ)] (hrows : settings.RowByRow)
    (hpolicy : log.policy ≠ .stopPipeline) (batch : List Record) (files : σ) :
    (settings.writeBatch batch false log files).2.1 = log.keep (settings.routedOf batch) := by
  have hrest : (log.keep (settings.unresolved batch)).policy ≠ .stopPipeline := by
    rwa [ErrorLog.policy_keep]
  rw [writeBatch]
  split
  · rename_i hempty
    rw [routedOf, plansOf, List.isEmpty_iff.mp hempty, groups_nil]
    exact (log.keep_nil).symm
  · rw [ErrorLog.routeEach_of_tolerant hpolicy]
    simp only
    split
    · rename_i hgroups
      rw [routedOf, plansOf, List.isEmpty_iff.mp hgroups, List.map_nil, List.flatMap_nil,
        List.append_nil]
    · rw [writeGroups, hrows.runGroups hrest, ErrorLog.keep_append]
      simp only [Bool.false_eq_true, if_false]
      split <;> rfl

theorem failuresOf_append (settings : Settings) (first second : List Record) :
    settings.failuresOf (first ++ second) =
      settings.failuresOf first ++ settings.failuresOf second :=
  List.filterMap_append

theorem linesOf_append (settings : Settings) (first second : List Record) :
    settings.linesOf (first ++ second) = settings.linesOf first ++ settings.linesOf second :=
  List.filterMap_append

theorem failuresOf_cons (settings : Settings) (record : Record) (rest : List Record) :
    settings.failuresOf (record :: rest) =
      settings.failuresOf [record] ++ settings.failuresOf rest :=
  settings.failuresOf_append [record] rest

theorem linesOf_cons (settings : Settings) (record : Record) (rest : List Record) :
    settings.linesOf (record :: rest) = settings.linesOf [record] ++ settings.linesOf rest :=
  settings.linesOf_append [record] rest

/-- The records of the groups of a batch are those that resolve. -/
theorem flatMap_groups_perm (settings : Settings) (batch : List Record) :
    (settings.groups batch).flatMap Prod.snd ~ (settings.resolved batch).map Prod.snd := by
  rw [groups, Grouping.flatMap_snd_group]
  exact (Grouping.regroup_perm Prod.fst (settings.resolved batch)).map Prod.snd

section

variable {record : Record} {table : String} {e : EvaluationError} (rest : List Record)

theorem resolved_cons_of_ok (hresolve : settings.resolve record = .ok table) :
    settings.resolved (record :: rest) = (table, record) :: settings.resolved rest := by
  simp [resolved, hresolve]

theorem resolved_cons_of_error (hresolve : settings.resolve record = .error e) :
    settings.resolved (record :: rest) = settings.resolved rest := by
  simp [resolved, hresolve]

theorem unresolved_cons_of_ok (hresolve : settings.resolve record = .ok table) :
    settings.unresolved (record :: rest) = settings.unresolved rest := by
  simp [unresolved, hresolve]

theorem unresolved_cons_of_error (hresolve : settings.resolve record = .error e) :
    settings.unresolved (record :: rest) = (record, .evaluation e) :: settings.unresolved rest := by
  simp [unresolved, hresolve]

end

/-- A record that does not resolve fails, and any other fares as it does in its group. -/
theorem unresolved_append_perm (settings : Settings) (batch : List Record) :
    settings.unresolved batch ++ settings.failuresOf ((settings.resolved batch).map Prod.snd) ~
      settings.failuresOf batch := by
  induction batch with
  | nil => exact List.Perm.refl _
  | cons record rest ih =>
      cases hresolve : settings.resolve record with
      | error e =>
          have hfirst : settings.failuresOf [record] = [(record, .evaluation e)] := by
            simp [failuresOf, verdict, hresolve, Verdict.cause?]
          rw [unresolved_cons_of_error rest hresolve, resolved_cons_of_error rest hresolve,
            failuresOf_cons, hfirst]
          exact ih.cons _
      | ok table =>
          -- Its failure is routed after those of the records that do not resolve.
          rw [unresolved_cons_of_ok rest hresolve, resolved_cons_of_ok rest hresolve,
            List.map_cons, settings.failuresOf_cons record ((settings.resolved rest).map Prod.snd),
            settings.failuresOf_cons record rest]
          calc
            settings.unresolved rest ++ (settings.failuresOf [record] ++
                settings.failuresOf ((settings.resolved rest).map Prod.snd))
              ~ settings.failuresOf [record] ++ (settings.unresolved rest ++
                settings.failuresOf ((settings.resolved rest).map Prod.snd)) :=
                List.perm_append_comm_assoc _ _ _
            _ ~ settings.failuresOf [record] ++ settings.failuresOf rest := ih.append_left _

/-- A line is for the table that its record resolves to. -/
theorem table_of_mem_linesOf {record : Record} {table : String}
    (hresolve : settings.resolve record = .ok table) {line : TableLine}
    (hline : line ∈ settings.linesOf [record]) : line.table = table := by
  rw [linesOf, List.filterMap_cons, List.filterMap_nil, verdict_of_resolve hresolve] at hline
  cases hgiven : (settings.verdictIn table record).line? with
  | none => simp [hgiven] at hline
  | some given =>
      simp only [hgiven, List.mem_singleton] at hline
      rw [hline]
      exact table_of_verdictIn hgiven

/-- The lines for some tables are those of the records that resolve to them. -/
theorem linesOf_filter (settings : Settings) (batch : List Record) (p : String → Bool) :
    settings.linesOf (((settings.resolved batch).filter fun entry => p entry.1).map Prod.snd) =
      (settings.linesOf batch).filter fun line => p line.table := by
  induction batch with
  | nil => rfl
  | cons record rest ih =>
      rw [settings.linesOf_cons record rest, List.filter_append, ← ih]
      cases hresolve : settings.resolve record with
      | error e =>
          have hnone : settings.linesOf [record] = [] := by
            simp [linesOf, verdict, hresolve, Verdict.line?]
          rw [resolved_cons_of_error rest hresolve, hnone]
          rfl
      | ok table =>
          -- The lines of one record are all for one table, so that all are kept or none.
          have htable : (settings.linesOf [record]).filter (fun line => p line.table) =
              (settings.linesOf [record]).filter fun _ => p table := by
            apply List.filter_congr
            intro line hline
            rw [table_of_mem_linesOf hresolve hline]
          rw [resolved_cons_of_ok rest hresolve, htable, List.filter_cons]
          cases p table with
          | true => rw [if_pos rfl, List.map_cons, linesOf_cons, List.filter_true]
          | false => rw [if_neg Bool.false_ne_true, List.filter_false, List.nil_append]

theorem linesOf_resolved (settings : Settings) (batch : List Record) :
    settings.linesOf ((settings.resolved batch).map Prod.snd) = settings.linesOf batch := by
  have hall := settings.linesOf_filter batch fun _ => true
  rwa [List.filter_true, List.filter_true] at hall

namespace RowByRow

variable (hrows : settings.RowByRow)

include hrows

/-- The failures of a batch are those of its records, in another order. -/
theorem routedOf_perm (batch : List Record) :
    settings.routedOf batch ~ settings.failuresOf batch := by
  calc
    settings.routedOf batch
      = settings.unresolved batch ++
          (settings.groups batch).flatMap fun group => settings.failuresOf group.2 := by
        rw [routedOf, plansOf, List.flatMap_map]
        congr 1
        apply List.flatMap_congr
        intro group hgroup
        exact hrows.failures_planOf (resolves_of_mem_groups hgroup)
    _ = settings.unresolved batch ++
          settings.failuresOf ((settings.groups batch).flatMap Prod.snd) := by
        rw [failuresOf, List.filterMap_flatMap]
        rfl
    _ ~ settings.unresolved batch ++
          settings.failuresOf ((settings.resolved batch).map Prod.snd) :=
        ((settings.flatMap_groups_perm batch).filterMap _).append_left _
    _ ~ settings.failuresOf batch := settings.unresolved_append_perm batch

/-- The plan of a table has the lines that its records give, in their order. -/
theorem lines_of_mem {plan : GroupPlan} (hplan : plan ∈ settings.plansOf batch) :
    plan.lines = (settings.linesOf batch).filter fun line => line.table == plan.outcome.table := by
  obtain ⟨group, hgroup, rfl⟩ := List.mem_map.mp hplan
  obtain ⟨-, hvalues⟩ := Grouping.mem_group.mp hgroup
  rw [hrows.lines_planOf (resolves_of_mem_groups hgroup), table_planOf, hvalues]
  exact settings.linesOf_filter batch fun table => table == group.1

/-- The lines of the plans are those of the records, in another order. -/
theorem lines_perm (batch : List Record) :
    (settings.plansOf batch).flatMap GroupPlan.lines ~ settings.linesOf batch := by
  calc
    (settings.plansOf batch).flatMap GroupPlan.lines
      = (settings.groups batch).flatMap fun group => settings.linesOf group.2 := by
        rw [plansOf, List.flatMap_map]
        apply List.flatMap_congr
        intro group hgroup
        exact hrows.lines_planOf (resolves_of_mem_groups hgroup)
    _ = settings.linesOf ((settings.groups batch).flatMap Prod.snd) := by
        rw [linesOf, List.filterMap_flatMap]
        rfl
    _ ~ settings.linesOf ((settings.resolved batch).map Prod.snd) :=
        (settings.flatMap_groups_perm batch).filterMap _
    _ = settings.linesOf batch := settings.linesOf_resolved batch

theorem accounts (batch : List Record) :
    List.Forall₂ (Accounts settings) (settings.groups batch) (settings.plansOf batch) := by
  have htolerant : ({} : ErrorLog).policy ≠ .stopPipeline := by simp
  exact accounts_of_planned? (hrows.planned? htolerant batch)

/-- The outcome of a batch counts the verdicts on its records. -/
theorem counts_ofTables (batch : List Record) {outcome : WriteOutcome}
    (houtcome : outcome = .ofTables (settings.unresolved batch).length
      ((settings.plansOf batch).map GroupPlan.outcome)) :
    outcome.written = (settings.linesOf batch).length ∧
      outcome.errored = (settings.failuresOf batch).length ∧
      outcome.discarded = settings.droppedOf batch := by
  have htotal := total_ofTables (hrows.accounts batch) houtcome
  have hverdicts := settings.count_verdicts batch
  have hwritten : outcome.written = (settings.linesOf batch).length := by
    rw [houtcome, ← (hrows.lines_perm batch).length_eq, List.length_flatMap, plansOf]
    simp [WriteOutcome.ofTables, List.sum_eq_foldr, Function.comp_def, hrows.written_planOf]
  have herrored : outcome.errored = (settings.failuresOf batch).length := by
    rw [houtcome, ← (hrows.routedOf_perm batch).length_eq, routedOf, List.length_append,
      List.length_flatMap, plansOf]
    simp [WriteOutcome.ofTables, List.sum_eq_foldr, Function.comp_def, errored_planOf]
  refine ⟨hwritten, herrored, ?_⟩
  omega

end RowByRow

end Settings

end JsonLines

end TableRouting
