import TableRouting.Proofs.Batch.Commit

/-!
# Records are conserved

Every record of a committed batch is written, rejected or dropped, and counted in
the outcome once.  The rows that the outcome counts as written are those that the
files of the tables have got, and no other file has changed.
-/

namespace TableRouting.JsonLines

namespace Settings

/-- The place of the file of a table, if the table can be written. -/
def place? (settings : Settings) (workingDirectory : Location) (table : String) :
    Option Location :=
  match TableWriter.create table settings.spec with
  | .ok _ => some ((settings.fileOf table).place settings.root workingDirectory)
  | .error _ => none

theorem place?_eq_some {settings : Settings} {workingDirectory location : Location}
    {table : String} (hplace : settings.place? workingDirectory table = some location) :
    (settings.fileOf table).Fit ∧
      location = (settings.fileOf table).place settings.root workingDirectory := by
  rw [place?] at hplace
  split at hplace
  · rename_i writer hcreate
    exact ⟨TableFile.fit_of_create hcreate, (Option.some.inj hplace).symm⟩
  · simp at hplace

/-- Two tables are in different places. -/
theorem eq_of_place? {settings : Settings} (hroot : settings.root ≠ "")
    {workingDirectory location : Location} {first second : String}
    (hfirst : settings.place? workingDirectory first = some location)
    (hsecond : settings.place? workingDirectory second = some location) : first = second := by
  obtain ⟨hfit, hplace⟩ := place?_eq_some hfirst
  obtain ⟨hfit', hplace'⟩ := place?_eq_some hsecond
  apply settings.fileOf_injective
  exact hfit.eq_of_place_eq hfit' rfl hroot (hplace.symm.trans hplace')

end Settings

/-- What a committed batch did, in the outcome and in the files. -/
structure Conserved (settings : Settings) (batch : List Record) (outcome : WriteOutcome)
    (before after : Machine) : Prop where
  total : outcome.written + outcome.errored + outcome.discarded = batch.length
  /-- Every table once, in the order in which the tables first appear. -/
  tables : outcome.tables.map TableOutcome.table =
    ((settings.resolved batch).map Prod.fst).eraseDups
  once : (outcome.tables.map TableOutcome.table).Nodup
  written : outcome.written = (outcome.tables.map TableOutcome.written).sum
  errored : outcome.errored =
    (settings.unresolved batch).length + (outcome.tables.map TableOutcome.errored).sum
  discarded : outcome.discarded = (outcome.tables.map TableOutcome.discarded).sum
  /-- The file of a table has got lines with as many rows as were written. -/
  appended : ∀ entry ∈ outcome.tables, entry.written ≠ 0 → ∃ location, ∃ lines : List TableLine,
    settings.place? before.workingDirectory entry.table = some location ∧
    after.tree.text? location = some ((before.tree.text? location).getD "" ++
      Connection.linesText (lines.map TableLine.render)) ∧
    (lines.map fun line => line.rows.length).sum = entry.written ∧
    ∀ line ∈ lines, line.table = entry.table ∧ line.schema = settings.spec.schema
  idle : ∀ entry ∈ outcome.tables, entry.written = 0 →
    ∀ location ∈ settings.place? before.workingDirectory entry.table,
      after.tree.text? location = before.tree.text? location
  elsewhere : ∀ location, (∀ entry ∈ outcome.tables, entry.written ≠ 0 →
      settings.place? before.workingDirectory entry.table ≠ some location) →
    after.tree.text? location = before.tree.text? location

variable {settings : Settings}

/-- A record resolves or does not. -/
theorem length_resolved_unresolved (settings : Settings) (batch : List Record) :
    (settings.resolved batch).length + (settings.unresolved batch).length = batch.length := by
  induction batch with
  | nil => rfl
  | cons record rest ih =>
      rw [Settings.resolved, Settings.unresolved] at ih ⊢
      rw [List.filterMap_cons, List.filterMap_cons, List.length_cons, ← ih]
      cases settings.resolve record <;> simp only [List.length_cons] <;> omega

/-- A table with lines has its file. -/
theorem Accounts.place? {group : Group} {plan : GroupPlan} (haccount : Accounts settings group plan)
    (hlines : plan.lines ≠ []) (workingDirectory : Location) :
    settings.place? workingDirectory plan.outcome.table =
      some ((settings.fileOf plan.outcome.table).place settings.root workingDirectory) := by
  obtain ⟨writer, hcreate⟩ := haccount.built hlines
  rw [← haccount.table] at hcreate
  rw [Settings.place?, hcreate]

variable {batch : List Record} {plans : List GroupPlan} {before after : Machine}

/-- The outcome of plans counts every record of the batch once. -/
theorem total_ofTables (haccounts : List.Forall₂ (Accounts settings) (settings.groups batch) plans)
    {outcome : WriteOutcome}
    (houtcome : outcome =
      .ofTables (settings.unresolved batch).length (plans.map GroupPlan.outcome)) :
    outcome.written + outcome.errored + outcome.discarded = batch.length := by
  have hcount := count_of_accounts haccounts
  rw [Settings.groups, Grouping.sum_length_group] at hcount
  have hbatch := length_resolved_unresolved settings batch
  rw [houtcome, WriteOutcome.ofTables]
  simp only [List.map_map, Function.comp_def, ← List.sum_eq_foldr]
  omega

theorem tables_ofPlans
    (haccounts : List.Forall₂ (Accounts settings) (settings.groups batch) plans) :
    (plans.map GroupPlan.outcome).map TableOutcome.table =
      ((settings.resolved batch).map Prod.fst).eraseDups := by
  calc
    (plans.map GroupPlan.outcome).map TableOutcome.table
      = plans.map fun plan => plan.outcome.table := List.map_map
    _ = (settings.groups batch).map Prod.fst := tables_of_accounts haccounts
    _ = ((settings.resolved batch).map Prod.fst).eraseDups := Grouping.map_fst_group _

/-- What a commit of plans did to the files of their tables. -/
theorem conserved_of_extended (hroot : settings.root ≠ "")
    (haccounts : List.Forall₂ (Accounts settings) (settings.groups batch) plans)
    (hextended : Connection.Extended settings.root (settings.waiting plans) before after) :
    Conserved settings batch
      (.ofTables (settings.unresolved batch).length (plans.map GroupPlan.outcome))
      before after := by
  have htables := tables_ofPlans haccounts
  have honce : ((plans.map GroupPlan.outcome).map TableOutcome.table).Nodup := by
    rw [htables]
    exact Grouping.nodup_eraseDups _
  have hnodup : (plans.map fun plan => plan.outcome.table).Nodup := by
    rwa [List.map_map] at honce
  have helsewhere : ∀ location, (∀ entry ∈ plans.map GroupPlan.outcome, entry.written ≠ 0 →
      settings.place? before.workingDirectory entry.table ≠ some location) →
      after.tree.text? location = before.tree.text? location := by
    intro location hlocation
    apply hextended.elsewhere
    rintro ⟨file, lines⟩ hentry rfl
    obtain ⟨plan, hplan, hlines, rfl, -⟩ := (Settings.mem_waiting hnodup).mp hentry
    obtain ⟨group, haccount⟩ := exists_accounts haccounts hplan
    apply hlocation plan.outcome (List.mem_map_of_mem hplan)
    · exact fun hzero => hlines (haccount.idle.mpr hzero)
    · exact haccount.place? hlines _
  constructor
  · exact total_ofTables haccounts rfl
  · exact htables
  · exact honce
  · rfl
  · rfl
  · rfl
  · intro entry hentry hwritten
    obtain ⟨plan, hplan, rfl⟩ := List.mem_map.mp hentry
    obtain ⟨group, haccount⟩ := exists_accounts haccounts hplan
    have hlines : plan.lines ≠ [] := fun hnil => hwritten (haccount.idle.mp hnil)
    have hwaiting : (settings.fileOf plan.outcome.table, plan.lines.map TableLine.render) ∈
        settings.waiting plans :=
      (Settings.mem_waiting hnodup).mpr ⟨plan, hplan, hlines, rfl, rfl⟩
    have hnew := hextended.lines _ hwaiting
    exact ⟨_, plan.lines, haccount.place? hlines _, hnew, haccount.rows, haccount.lines⟩
  · intro entry hentry hzero location hplace
    apply helsewhere
    intro other hother hwritten hsame
    have htable : other.table = entry.table := Settings.eq_of_place? hroot hsame hplace
    rw [List.inj_on_of_nodup_map honce hother hentry htable] at hwritten
    exact hwritten hzero
  · exact helsewhere

/-- A batch that succeeds conserves its records. -/
theorem Settings.conserved (hroot : settings.root ≠ "") {sourceClosed : Bool} {log : ErrorLog}
    {outcome : WriteOutcome}
    (hok : (settings.writeBatch batch sourceClosed log before).1 = .ok outcome) :
    Conserved settings batch outcome before
      (settings.writeBatch batch sourceClosed log before).2.2 := by
  cases hplanned : settings.planned? batch sourceClosed log with
  | none =>
      obtain ⟨-, e, herror⟩ := writeBatch_of_not_planned hplanned before
      rw [hok] at herror
      simp at herror
  | some plans =>
      obtain ⟨hfiles, hresult⟩ := writeBatch_of_planned hplanned before
      obtain ⟨written, rest, hsplit, hextended, hend, -⟩ := commit_cases hroot hplanned before
      rw [hok] at hresult
      rw [hfiles]
      generalize settings.commit plans before = ended at hresult hextended hend
      obtain ⟨e | committed, after⟩ := ended
      · simp at hresult
      · obtain rfl := Except.ok.inj hresult
        rw [hend.mp rfl, List.append_nil] at hsplit
        rw [← hsplit] at hextended
        exact conserved_of_extended hroot (accounts_of_planned? hplanned) hextended

end TableRouting.JsonLines
