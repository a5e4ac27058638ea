import TableRouting.Proofs.Batch.Accounts

/-!
# The commit of a batch

A batch changes no file before its commit.  The commit goes through the files of the
plans of the batch, which are in different places, and appends the lines of each.
-/

namespace TableRouting.JsonLines

variable {settings : Settings} {σ : Type} [Host (StateM σ)]

namespace Settings

/-- The plans of a batch, unless a record, a group or the source fails it. -/
def planned? (settings : Settings) (batch : List Record) (sourceClosed : Bool) (log : ErrorLog) :
    Option (List GroupPlan) :=
  match log.routeEach (settings.unresolved batch) with
  | (.error _, _) => none
  | (.ok (), log) =>
    if sourceClosed ∧ settings.groups batch ≠ [] then none
    else (settings.runGroups (settings.groups batch) log).1.toOption

theorem accounts_of_planned? {batch : List Record} {sourceClosed : Bool} {log : ErrorLog}
    {plans : List GroupPlan} (hplanned : settings.planned? batch sourceClosed log = some plans) :
    List.Forall₂ (Accounts settings) (settings.groups batch) plans := by
  rw [planned?] at hplanned
  split at hplanned
  · simp at hplanned
  · rename_i after hrouted
    split at hplanned
    · simp at hplanned
    · cases hrun : (settings.runGroups (settings.groups batch) after).1 with
      | error e => simp [hrun, Except.toOption] at hplanned
      | ok made =>
          rw [hrun] at hplanned
          rw [← Option.some.inj hplanned]
          exact accounts_of_runGroups hrun

/-- No two plans of a batch are for one table. -/
theorem nodup_of_planned? {batch : List Record} {sourceClosed : Bool} {log : ErrorLog}
    {plans : List GroupPlan} (hplanned : settings.planned? batch sourceClosed log = some plans) :
    (plans.map fun plan => plan.outcome.table).Nodup := by
  rw [tables_of_accounts (accounts_of_planned? hplanned)]
  exact Grouping.nodup_group _

theorem waiting_nil (settings : Settings) : settings.waiting [] = [] := by
  rw [waiting, pending, List.flatMap_nil, Connection.byFile, Grouping.group_eq]
  exact List.mergeSort_nil

theorem commit_nil (settings : Settings) (files : σ) :
    settings.commit [] files = (.ok (), files) := by
  have hwaiting : Connection.byFile (settings.pending []) = [] := settings.waiting_nil
  rw [commit, hwaiting]
  rfl

theorem groups_nil (settings : Settings) : settings.groups [] = [] := by
  rw [groups, resolved, List.filterMap_nil, Grouping.group_eq]
  rfl

theorem planned?_of_groups_nil {batch : List Record} {sourceClosed : Bool}
    {log after : ErrorLog} (hrouted : log.routeEach (settings.unresolved batch) = (.ok (), after))
    (hgroups : settings.groups batch = []) :
    settings.planned? batch sourceClosed log = some [] := by
  simp [planned?, hrouted, hgroups, runGroups, Except.toOption]

theorem planned?_of_groups_ne {batch : List Record} (sourceClosed : Bool)
    {log after : ErrorLog} (hrouted : log.routeEach (settings.unresolved batch) = (.ok (), after))
    (hgroups : settings.groups batch ≠ []) :
    settings.planned? batch sourceClosed log =
      if sourceClosed then none
      else (settings.runGroups (settings.groups batch) after).1.toOption := by
  simp [planned?, hrouted, hgroups]

/-- What a batch that was planned leaves. -/
theorem writeBatch_of_planned {batch : List Record} {sourceClosed : Bool} {log : ErrorLog}
    {plans : List GroupPlan} (hplanned : settings.planned? batch sourceClosed log = some plans)
    (files : σ) :
    (settings.writeBatch batch sourceClosed log files).2.2 = (settings.commit plans files).2 ∧
    (settings.writeBatch batch sourceClosed log files).1 =
      match (settings.commit plans files).1 with
      | .error e => .error (.commit e)
      | .ok () => .ok (.ofTables (settings.unresolved batch).length
          (plans.map GroupPlan.outcome)) := by
  rw [writeBatch]
  split
  · rename_i hempty
    obtain rfl := List.isEmpty_iff.mp hempty
    have hrouted : log.routeEach (settings.unresolved []) = (.ok (), log) := rfl
    rw [planned?_of_groups_nil hrouted settings.groups_nil] at hplanned
    obtain rfl := Option.some.inj hplanned
    rw [commit_nil]
    exact ⟨rfl, rfl⟩
  · cases hrouted : log.routeEach (settings.unresolved batch) with
    | mk result after =>
        cases result with
        | error e => simp [planned?, hrouted] at hplanned
        | ok routed =>
            simp only
            by_cases hgroups : settings.groups batch = []
            · rw [planned?_of_groups_nil hrouted hgroups] at hplanned
              obtain rfl := Option.some.inj hplanned
              rw [if_pos (List.isEmpty_iff.mpr hgroups), commit_nil]
              exact ⟨rfl, rfl⟩
            · rw [planned?_of_groups_ne sourceClosed hrouted hgroups] at hplanned
              rw [if_neg (mt List.isEmpty_iff.mp hgroups), writeGroups]
              cases sourceClosed with
              | true => simp at hplanned
              | false =>
                  simp only [Bool.false_eq_true, if_false] at hplanned ⊢
                  generalize settings.runGroups (settings.groups batch) after = ran at hplanned
                  obtain ⟨e | made, final⟩ := ran
                  · simp [Except.toOption] at hplanned
                  · obtain rfl : made = plans := Option.some.inj hplanned
                    simp only
                    generalize settings.commit made files = ended
                    obtain ⟨e | committed, changed⟩ := ended
                    · exact ⟨rfl, rfl⟩
                    · exact ⟨rfl, rfl⟩

/-- A batch that was not planned fails, and no file changes. -/
theorem writeBatch_of_not_planned {batch : List Record} {sourceClosed : Bool} {log : ErrorLog}
    (hplanned : settings.planned? batch sourceClosed log = none) (files : σ) :
    (settings.writeBatch batch sourceClosed log files).2.2 = files ∧
      ∃ e, (settings.writeBatch batch sourceClosed log files).1 = .error e := by
  rw [writeBatch]
  split
  · rename_i hempty
    obtain rfl := List.isEmpty_iff.mp hempty
    have hrouted : log.routeEach (settings.unresolved []) = (.ok (), log) := rfl
    rw [planned?_of_groups_nil hrouted settings.groups_nil] at hplanned
    simp at hplanned
  · cases hrouted : log.routeEach (settings.unresolved batch) with
    | mk result after =>
        cases result with
        | error e => exact ⟨rfl, e, rfl⟩
        | ok routed =>
            simp only
            by_cases hgroups : settings.groups batch = []
            · rw [planned?_of_groups_nil hrouted hgroups] at hplanned
              simp at hplanned
            · rw [planned?_of_groups_ne sourceClosed hrouted hgroups] at hplanned
              rw [if_neg (mt List.isEmpty_iff.mp hgroups), writeGroups]
              cases sourceClosed with
              | true => exact ⟨rfl, _, rfl⟩
              | false =>
                  simp only [Bool.false_eq_true, if_false] at hplanned ⊢
                  generalize settings.runGroups (settings.groups batch) after = ran at hplanned
                  obtain ⟨e | made, final⟩ := ran
                  · exact ⟨rfl, e, rfl⟩
                  · simp [Except.toOption] at hplanned

/-- The file of a table with lines is fit for one. -/
theorem fit_of_mem_waiting {groups : List Group} {plans : List GroupPlan}
    (haccounts : List.Forall₂ (Accounts settings) groups plans)
    (htables : (plans.map fun plan => plan.outcome.table).Nodup) {file : TableFile}
    {lines : List String} (hfile : (file, lines) ∈ settings.waiting plans) :
    file.Fit ∧ file.schema = settings.spec.schema := by
  obtain ⟨plan, hplan, hlines, rfl, -⟩ := (mem_waiting htables).mp hfile
  obtain ⟨group, haccount⟩ := exists_accounts haccounts hplan
  obtain ⟨writer, hcreate⟩ := haccount.built hlines
  refine ⟨?_, rfl⟩
  rw [fileOf, haccount.table]
  exact TableFile.fit_of_create hcreate

/-- No two files of a commit are in one place. -/
theorem nodup_places (hroot : settings.root ≠ "") {groups : List Group} {plans : List GroupPlan}
    (haccounts : List.Forall₂ (Accounts settings) groups plans)
    (htables : (plans.map fun plan => plan.outcome.table).Nodup) (workingDirectory : Location) :
    ((settings.waiting plans).map fun entry =>
      entry.1.place settings.root workingDirectory).Nodup := by
  have hfiles : ((settings.waiting plans).map Prod.fst).Nodup :=
    ((List.mergeSort_perm _ _).map Prod.fst).nodup_iff.mpr (Grouping.nodup_group _)
  have hplaces := hfiles.map_on (f := fun file => file.place settings.root workingDirectory) ?_
  · rwa [List.map_map] at hplaces
  · intro first hfirst second hsecond hsame
    obtain ⟨⟨file, lines⟩, hentry, rfl⟩ := List.mem_map.mp hfirst
    obtain ⟨⟨other, more⟩, hother, rfl⟩ := List.mem_map.mp hsecond
    obtain ⟨hfit, hschema⟩ := fit_of_mem_waiting haccounts htables hentry
    obtain ⟨hfit', hschema'⟩ := fit_of_mem_waiting haccounts htables hother
    exact hfit.eq_of_place_eq hfit' (hschema.trans hschema'.symm) hroot hsame

/-- The commit of a batch gets through all of its files, or through those before one that
fails. -/
theorem commit_cases (hroot : settings.root ≠ "") {batch : List Record} {sourceClosed : Bool}
    {log : ErrorLog} {plans : List GroupPlan}
    (hplanned : settings.planned? batch sourceClosed log = some plans) (machine : Machine) :
    ∃ written rest, settings.waiting plans = written ++ rest ∧
      Connection.Extended settings.root written machine (settings.commit plans machine).2 ∧
      ((settings.commit plans machine).1 = .ok () ↔ rest = []) ∧
      (written ≠ [] ↔ Connection.canBegin settings.root machine (settings.waiting plans)) :=
  Connection.commitFiles_cases settings.root (settings.waiting plans) machine
    (nodup_places hroot (accounts_of_planned? hplanned) (nodup_of_planned? hplanned) _)

end Settings

end TableRouting.JsonLines
