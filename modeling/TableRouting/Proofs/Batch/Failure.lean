import TableRouting.Proofs.Batch.Conservation

/-!
# What a failed batch leaves

A batch that fails before its commit changes no file.  A commit that fails leaves the
files that it went through before with their lines: the connection cannot take back
what was appended.  So a failed batch is without a trace just when its commit, if it
comes to one, cannot write the first of its files.
-/

namespace TableRouting.JsonLines

variable {settings : Settings} {batch : List Record} {sourceClosed : Bool} {log : ErrorLog}
  {before after : Machine}

/-- No file of a table has changed. -/
def Settings.Untouched (settings : Settings) (before after : Machine) : Prop :=
  ∀ table, ∀ location ∈ settings.place? before.workingDirectory table,
    after.tree.text? location = before.tree.text? location

/-- A batch comes to its commit, and the first file of the commit can be written. -/
def Settings.Begins (settings : Settings) (batch : List Record)
    (sourceClosed : Bool) (log : ErrorLog) (machine : Machine) : Prop :=
  ∃ plans, settings.planned? batch sourceClosed log = some plans ∧
    Connection.canBegin settings.root machine (settings.waiting plans)

/-- Every file that waits has a line to wait for. -/
theorem lines_ne_nil_of_mem_waiting {plans : List GroupPlan} {entry : TableFile × List String}
    (hentry : entry ∈ settings.waiting plans) : entry.2 ≠ [] := by
  rw [Settings.waiting, Connection.byFile, (List.mergeSort_perm _ _).mem_iff] at hentry
  exact Grouping.group_ne_nil hentry

/-- A commit that wrote a file of a table shows. -/
theorem not_untouched_of_extended {groups : List Group} {plans : List GroupPlan}
    (haccounts : List.Forall₂ (Accounts settings) groups plans)
    (hnodup : (plans.map fun plan => plan.outcome.table).Nodup)
    {written : List (TableFile × List String)}
    (hwritten : written ⊆ settings.waiting plans) (hne : written ≠ [])
    (hextended : Connection.Extended settings.root written before after) :
    ¬ settings.Untouched before after := by
  intro huntouched
  obtain ⟨entry, hentry⟩ := List.exists_mem_of_ne_nil _ hne
  have hlines := lines_ne_nil_of_mem_waiting (hwritten hentry)
  apply hextended.text?_ne hentry hlines
  obtain ⟨plan, hplan, hplanned, hfile, -⟩ := (Settings.mem_waiting hnodup).mp (hwritten hentry)
  obtain ⟨group, haccount⟩ := exists_accounts haccounts hplan
  rw [hfile]
  exact huntouched plan.outcome.table _ (haccount.place? hplanned _)

/-- A batch changes no file of a table, unless its commit can write the first of its
files. -/
theorem Settings.untouched_iff (hroot : settings.root ≠ "") :
    settings.Untouched before (settings.writeBatch batch sourceClosed log before).2.2 ↔
      ¬ settings.Begins batch sourceClosed log before := by
  cases hplanned : settings.planned? batch sourceClosed log with
  | none =>
      rw [(writeBatch_of_not_planned hplanned before).1]
      constructor
      · rintro - ⟨plans, hsome, -⟩
        rw [hplanned] at hsome
        simp at hsome
      · exact fun _ _ _ _ => rfl
  | some plans =>
      obtain ⟨written, rest, hsplit, hextended, -, hbegins⟩ := commit_cases hroot hplanned before
      rw [(writeBatch_of_planned hplanned before).1]
      have hwritten : settings.Begins batch sourceClosed log before ↔ written ≠ [] := by
        rw [hbegins, Settings.Begins, hplanned]
        simp
      rw [hwritten, not_not]
      constructor
      · intro huntouched
        by_contra hne
        have hsubset : written ⊆ settings.waiting plans := by
          rw [hsplit]
          exact List.subset_append_left written rest
        exact not_untouched_of_extended (accounts_of_planned? hplanned)
          (nodup_of_planned? hplanned) hsubset hne hextended huntouched
      · rintro rfl table location -
        exact hextended.elsewhere location fun entry hentry => absurd hentry List.not_mem_nil

end TableRouting.JsonLines
