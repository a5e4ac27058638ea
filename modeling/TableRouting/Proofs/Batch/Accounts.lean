import TableRouting.Proofs.Batch.Following
import TableRouting.Proofs.JsonLines.Committing

/-!
# The accounts of a batch

The plan of a group accounts for every record of the group, and its lines hold the
rows that its outcome counts as written.  The lines that wait for the commit are
those of the plans, file by file, and no two files are in one place.
-/

namespace TableRouting.JsonLines

variable {settings : Settings}

/-- The plan of a group accounts for its records. -/
structure Accounts (settings : Settings) (group : Group) (plan : GroupPlan) : Prop where
  table : plan.outcome.table = group.1
  count : plan.outcome.written + plan.outcome.errored + plan.outcome.discarded = group.2.length
  rows : (plan.lines.map fun line => line.rows.length).sum = plan.outcome.written
  idle : plan.lines = [] ↔ plan.outcome.written = 0
  lines : ∀ line ∈ plan.lines,
    line.table = plan.outcome.table ∧ line.schema = settings.spec.schema
  built : plan.lines ≠ [] → ∃ writer, TableWriter.create group.1 settings.spec = .ok writer

/-- A failure that names a record of its group is reported. -/
theorem length_reported (table : String) {records : List Record} {failures : List RecordFailure}
    (hindex : ∀ failure ∈ failures, failure.index < records.length) :
    (reported table records failures).length = failures.length := by
  induction failures with
  | nil => rfl
  | cons failure rest ih =>
      have hlt := hindex failure List.mem_cons_self
      have hrest := ih fun other hother => hindex other (List.mem_cons_of_mem _ hother)
      rw [reported, List.filterMap_cons, List.getElem?_eq_getElem hlt, List.length_cons, ← hrest]
      rfl

theorem accounts_ofRefusal (settings : Settings) (group : Group) (e : ConstructionError) :
    Accounts settings group (.ofRefusal group e) where
  table := rfl
  count := by simp [GroupPlan.ofRefusal]
  rows := rfl
  idle := Iff.intro (fun _ => rfl) fun _ => rfl
  lines := fun _ hline => absurd hline List.not_mem_nil
  built := fun hne => absurd rfl hne

theorem accounts_ofReport {group : Group} {writer : TableWriter}
    (hcreate : TableWriter.create group.1 settings.spec = .ok writer) :
    Accounts settings group (.ofReport settings.spec group) where
  table := rfl
  count := by
    have hindex : ∀ failure ∈ (TableWriter.report settings.spec group.2).failures,
        failure.index < group.2.length :=
      fun _ hfailure => TableWriter.index_lt_of_mem_report hfailure
    have hreported := length_reported group.1 hindex
    have hcount := TableWriter.count_report settings.spec group.2
    simp only [GroupPlan.ofReport, hreported]
    omega
  rows := TableWriter.sum_rows_lines settings.spec group.1 group.2
  idle := TableWriter.lines_eq_nil_iff settings.spec group.1 group.2
  lines := fun _ hline => TableWriter.table_of_mem_lines hline
  built := fun _ => ⟨writer, hcreate⟩

theorem accounts_of_planGroup {group : Group} {plan : GroupPlan}
    (hplan : settings.planGroup group = .ok plan) : Accounts settings group plan := by
  rw [Settings.planGroup] at hplan
  cases hcreate : TableWriter.create group.1 settings.spec with
  | error e =>
      simp only [hcreate] at hplan
      split at hplan
      · simp at hplan
      · rw [← Except.ok.inj hplan]
        exact accounts_ofRefusal settings group e
  | ok writer =>
      simp only [hcreate] at hplan
      split at hplan
      · simp at hplan
      · rw [← Except.ok.inj hplan]
        exact accounts_ofReport hcreate

/-- Every group has its plan, if no group fails the batch. -/
theorem accounts_of_runGroups {groups : List Group} {log : ErrorLog} {plans : List GroupPlan}
    (hrun : (settings.runGroups groups log).1 = .ok plans) :
    List.Forall₂ (Accounts settings) groups plans := by
  induction groups generalizing log plans with
  | nil =>
      rw [← Except.ok.inj hrun]
      exact List.Forall₂.nil
  | cons group rest ih =>
      rw [Settings.runGroups] at hrun
      cases hfirst : settings.runGroup group log with
      | mk result log =>
          cases result with
          | error e => simp [hfirst] at hrun
          | ok plan =>
              have hplan := planGroup_of_runGroup (congrArg Prod.fst hfirst)
              simp only [hfirst] at hrun
              cases hrest : settings.runGroups rest log with
              | mk result log =>
                  cases result with
                  | error e => simp [hrest] at hrun
                  | ok more =>
                      rw [hrest] at hrun
                      rw [← Except.ok.inj hrun]
                      exact List.Forall₂.cons (accounts_of_planGroup hplan)
                        (ih (congrArg Prod.fst hrest))

theorem tables_of_accounts {groups : List Group} {plans : List GroupPlan}
    (haccounts : List.Forall₂ (Accounts settings) groups plans) :
    plans.map (fun plan => plan.outcome.table) = groups.map Prod.fst := by
  induction haccounts with
  | nil => rfl
  | cons hfirst hrest ih => rw [List.map_cons, List.map_cons, ih, hfirst.table]

theorem count_of_accounts {groups : List Group} {plans : List GroupPlan}
    (haccounts : List.Forall₂ (Accounts settings) groups plans) :
    (plans.map fun plan => plan.outcome.written).sum +
        (plans.map fun plan => plan.outcome.errored).sum +
        (plans.map fun plan => plan.outcome.discarded).sum =
      (groups.map fun group => group.2.length).sum := by
  induction haccounts with
  | nil => rfl
  | cons hfirst hrest ih =>
      have hcount := hfirst.count
      simp only [List.map_cons, List.sum_cons]
      omega

theorem exists_accounts {groups : List Group} {plans : List GroupPlan}
    (haccounts : List.Forall₂ (Accounts settings) groups plans) {plan : GroupPlan}
    (hplan : plan ∈ plans) : ∃ group, Accounts settings group plan := by
  induction haccounts with
  | nil => exact absurd hplan List.not_mem_nil
  | cons hfirst hrest ih =>
      rcases List.mem_cons.mp hplan with rfl | hlater
      · exact ⟨_, hfirst⟩
      · exact ih hlater

namespace Settings

/-- The files that the commit of plans goes through, with their lines. -/
def waiting (settings : Settings) (plans : List GroupPlan) : List (TableFile × List String) :=
  Connection.byFile (settings.pending plans)

theorem fileOf_injective (settings : Settings) : Function.Injective settings.fileOf := by
  intro first second hsame
  exact congrArg TableFile.table hsame

theorem table_of_mem_pending {plans : List GroupPlan} {file : TableFile} {line : String}
    (hpending : (file, line) ∈ settings.pending plans) :
    ∃ plan ∈ plans, plan.lines ≠ [] ∧ file = settings.fileOf plan.outcome.table := by
  obtain ⟨plan, hplan, hline⟩ := List.mem_flatMap.mp hpending
  obtain ⟨entry, hentry, hsame⟩ := List.mem_map.mp hline
  exact ⟨plan, hplan, List.ne_nil_of_mem hentry, (congrArg Prod.fst hsame).symm⟩

theorem pending_cons (settings : Settings) (plan : GroupPlan) (rest : List GroupPlan) :
    settings.pending (plan :: rest) =
      (plan.lines.map fun line => (settings.fileOf plan.outcome.table, line.render)) ++
        settings.pending rest :=
  rfl

/-- The lines of a plan are all for the file of its table. -/
theorem filter_own (settings : Settings) (plan : GroupPlan) :
    (plan.lines.map fun line => (settings.fileOf plan.outcome.table, line.render)).filter
        (fun entry => entry.1 == settings.fileOf plan.outcome.table) =
      plan.lines.map fun line => (settings.fileOf plan.outcome.table, line.render) := by
  apply List.filter_eq_self.mpr
  intro entry hentry
  obtain ⟨line, -, rfl⟩ := List.mem_map.mp hentry
  exact beq_self_eq_true _

theorem filter_foreign {plans : List GroupPlan} {table : String}
    (htables : ∀ plan ∈ plans, plan.outcome.table ≠ table) :
    (settings.pending plans).filter (fun entry => entry.1 == settings.fileOf table) = [] := by
  apply List.filter_eq_nil_iff.mpr
  intro entry hentry hfile
  obtain ⟨plan, hplan, -, hplace⟩ := table_of_mem_pending hentry
  apply htables plan hplan
  exact settings.fileOf_injective (hplace.symm.trans (eq_of_beq hfile))

/-- The lines that wait for the file of a table are those of its plan. -/
theorem filter_pending {plans : List GroupPlan}
    (htables : (plans.map fun plan => plan.outcome.table).Nodup) {plan : GroupPlan}
    (hplan : plan ∈ plans) :
    ((settings.pending plans).filter fun entry =>
        entry.1 == settings.fileOf plan.outcome.table).map Prod.snd =
      plan.lines.map TableLine.render := by
  induction plans with
  | nil => exact absurd hplan List.not_mem_nil
  | cons first rest ih =>
      rw [List.map_cons, List.nodup_cons] at htables
      rw [pending_cons, List.filter_append]
      by_cases hfirst : first.outcome.table = plan.outcome.table
      · have hrest : ∀ other ∈ rest, other.outcome.table ≠ plan.outcome.table := by
          intro other hother hsame
          apply htables.1
          rw [hfirst, ← hsame]
          exact List.mem_map_of_mem hother
        have hplan : plan = first := by
          rcases List.mem_cons.mp hplan with h | h
          · exact h
          · exact absurd rfl (hrest plan h)
        rw [filter_foreign hrest, List.append_nil, hplan, filter_own, List.map_map]
        rfl
      · have hnone : (settings.pending [first]).filter _ = [] :=
          filter_foreign fun other hother => List.mem_singleton.mp hother ▸ hfirst
        rw [pending, List.flatMap_singleton] at hnone
        rw [hnone, List.nil_append]
        rcases List.mem_cons.mp hplan with h | h
        · exact absurd (congrArg (fun plan => plan.outcome.table) h.symm) hfirst
        · exact ih htables.2 h

/-- A file waits for its lines if its table has any. -/
theorem mem_waiting {plans : List GroupPlan}
    (htables : (plans.map fun plan => plan.outcome.table).Nodup) {file : TableFile}
    {lines : List String} :
    (file, lines) ∈ settings.waiting plans ↔ ∃ plan ∈ plans, plan.lines ≠ [] ∧
      file = settings.fileOf plan.outcome.table ∧ lines = plan.lines.map TableLine.render := by
  rw [waiting, Connection.byFile, (List.mergeSort_perm _ _).mem_iff, Grouping.mem_group]
  constructor
  · rintro ⟨hfile, rfl⟩
    obtain ⟨⟨key, line⟩, hpending, rfl⟩ := List.mem_map.mp hfile
    obtain ⟨plan, hplan, hlines, rfl⟩ := table_of_mem_pending hpending
    exact ⟨plan, hplan, hlines, rfl, filter_pending htables hplan⟩
  · rintro ⟨plan, hplan, hlines, rfl, rfl⟩
    refine ⟨?_, (filter_pending htables hplan).symm⟩
    obtain ⟨line, hline⟩ := List.exists_mem_of_ne_nil _ hlines
    apply List.mem_map.mpr
    refine ⟨(settings.fileOf plan.outcome.table, line.render), ?_, rfl⟩
    exact List.mem_flatMap.mpr ⟨plan, hplan, List.mem_map_of_mem hline⟩

end Settings

end TableRouting.JsonLines
