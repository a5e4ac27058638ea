import TableRouting.Proofs.Batch.Verdicts
import TableRouting.Proofs.Sink.Outcomes

/-!
# Batches cut elsewhere

A sink that judges its records one by one leaves the same, however a list of records is
cut into batches: the totals, the files, and the error records but for their order.  What
the batches of a run leave adds up to what becomes of each of their records, and a run
that adds up does not show where one batch ended and the next began.
-/

open scoped List

namespace TableRouting.JsonLines

namespace Settings

def linesAt (settings : Settings) (workingDirectory location : Location)
    (records : List Record) : List String :=
  ((settings.linesOf records).filter fun line =>
    settings.place? workingDirectory line.table == some location).map TableLine.render

theorem linesAt_append (settings : Settings) (workingDirectory location : Location)
    (first second : List Record) :
    settings.linesAt workingDirectory location (first ++ second) =
      settings.linesAt workingDirectory location first ++
        settings.linesAt workingDirectory location second := by
  rw [linesAt, linesOf_append, List.filter_append, List.map_append]
  rfl

variable {settings : Settings} {batch : List Record} {before after : Machine}

/-- No two plans of a batch are for one table. -/
theorem RowByRow.nodup_tables (hrows : settings.RowByRow) (batch : List Record) :
    ((settings.plansOf batch).map fun plan => plan.outcome.table).Nodup := by
  rw [tables_of_accounts (hrows.accounts batch)]
  exact Grouping.nodup_group _

/-- A file that waits for lines is that of the table of a record. -/
theorem RowByRow.exists_record (hrows : settings.RowByRow) {entry : TableFile × List String}
    (hentry : entry ∈ settings.waiting (settings.plansOf batch)) :
    ∃ record ∈ batch, ∃ table, settings.resolve record = .ok table ∧
      entry.1 = settings.fileOf table := by
  obtain ⟨plan, hplan, -, hfile, -⟩ := (mem_waiting (hrows.nodup_tables batch)).mp hentry
  obtain ⟨group, hgroup, rfl⟩ := List.mem_map.mp hplan
  obtain ⟨hkey, -⟩ := Grouping.mem_group.mp hgroup
  obtain ⟨pair, hpair, htable⟩ := List.mem_map.mp hkey
  obtain ⟨hrecord, hresolve⟩ := mem_of_mem_resolved hpair
  rw [table_planOf, ← htable] at hfile
  exact ⟨pair.2, hrecord, pair.1, hresolve, hfile⟩

/-- Every line waits in the plan of its table. -/
theorem RowByRow.exists_plan (hrows : settings.RowByRow) {line : TableLine}
    (hline : line ∈ settings.linesOf batch) :
    ∃ plan ∈ settings.plansOf batch, line ∈ plan.lines ∧ line.table = plan.outcome.table := by
  obtain ⟨plan, hplan, hmem⟩ := List.mem_flatMap.mp ((hrows.lines_perm batch).mem_iff.mpr hline)
  obtain ⟨group, haccount⟩ := exists_accounts (hrows.accounts batch) hplan
  exact ⟨plan, hplan, hmem, (haccount.lines line hmem).1⟩

/-- The file of a plan gets the lines that the records of the batch give to it. -/
theorem RowByRow.linesAt_of_mem (hrows : settings.RowByRow) (hroot : settings.root ≠ "")
    {plan : GroupPlan} (hplan : plan ∈ settings.plansOf batch)
    {workingDirectory location : Location}
    (hplace : settings.place? workingDirectory plan.outcome.table = some location) :
    settings.linesAt workingDirectory location batch = plan.lines.map TableLine.render := by
  rw [hrows.lines_of_mem hplan, linesAt]
  congr 1
  apply List.filter_congr
  intro line _
  rw [Bool.eq_iff_iff, beq_iff_eq, beq_iff_eq]
  constructor
  · exact fun hsame => eq_of_place? hroot hsame hplace
  · exact fun hsame => hsame ▸ hplace

/-- A commit gives every file the lines of the records that are written to it. -/
theorem RowByRow.text?_of_extended (hrows : settings.RowByRow) (hroot : settings.root ≠ "")
    (hextended : Connection.Extended settings.root (settings.waiting (settings.plansOf batch))
      before after) (location : Location) :
    after.tree.text? location =
      Connection.extended (before.tree.text? location)
        (settings.linesAt before.workingDirectory location batch) := by
  have haccounts := hrows.accounts batch
  have htables := hrows.nodup_tables batch
  -- Either a plan has lines for the file at the location, or no record gives it one.
  by_cases hwaits : ∃ plan ∈ settings.plansOf batch, plan.lines ≠ [] ∧
      (settings.fileOf plan.outcome.table).place settings.root before.workingDirectory = location
  · obtain ⟨plan, hplan, hlines, rfl⟩ := hwaits
    obtain ⟨group, haccount⟩ := exists_accounts haccounts hplan
    have hwaiting : (settings.fileOf plan.outcome.table, plan.lines.map TableLine.render) ∈
        settings.waiting (settings.plansOf batch) :=
      (mem_waiting htables).mpr ⟨plan, hplan, hlines, rfl, rfl⟩
    have hrendered : plan.lines.map TableLine.render ≠ [] := by simpa using hlines
    have hnew := hextended.lines _ hwaiting
    rw [hrows.linesAt_of_mem hroot hplan (haccount.place? hlines _),
      Connection.extended_of_ne hrendered]
    exact hnew
  · have hnone : settings.linesAt before.workingDirectory location batch = [] := by
      rw [linesAt, List.map_eq_nil_iff, List.filter_eq_nil_iff]
      intro line hline hplace
      obtain ⟨plan, hplan, hmem, htable⟩ := hrows.exists_plan hline
      rw [htable] at hplace
      exact hwaits ⟨plan, hplan, List.ne_nil_of_mem hmem,
        (place?_eq_some (eq_of_beq hplace)).2.symm⟩
    rw [hnone, Connection.extended_nil]
    apply hextended.elsewhere
    rintro ⟨file, lines⟩ hentry rfl
    obtain ⟨plan, hplan, hlines, rfl, -⟩ := (mem_waiting htables).mp hentry
    exact hwaits ⟨plan, hplan, hlines, rfl⟩

end Settings

/-- Outcomes, error records and files add up to what becomes of each record. -/
structure AddsUp (settings : Settings) (records : List Record) (log : ErrorLog)
    (before : Machine) (outcomes : List WriteOutcome) (left : ErrorLog × Machine) : Prop where
  written : (outcomes.map WriteOutcome.written).sum = (settings.linesOf records).length
  errored : (outcomes.map WriteOutcome.errored).sum = (settings.failuresOf records).length
  discarded : (outcomes.map WriteOutcome.discarded).sum = settings.droppedOf records
  errors : ∃ failures, failures ~ settings.failuresOf records ∧ left.1 = log.keep failures
  workingDirectory : left.2.workingDirectory = before.workingDirectory
  texts : ∀ location, left.2.tree.text? location =
    Connection.extended (before.tree.text? location)
      (settings.linesAt before.workingDirectory location records)

namespace AddsUp

variable {settings : Settings} {first second : List Record} {log : ErrorLog} {before : Machine}
  {outcomes others : List WriteOutcome} {between left : ErrorLog × Machine}

theorem nil (settings : Settings) (log : ErrorLog) (before : Machine) :
    AddsUp settings [] log before [] (log, before) where
  written := rfl
  errored := rfl
  discarded := rfl
  errors := ⟨[], List.Perm.refl _, log.keep_nil.symm⟩
  workingDirectory := rfl
  texts := fun _ => rfl

/-- What one run leaves, and then another, adds up for the records of both. -/
theorem append (hfirst : AddsUp settings first log before outcomes between)
    (hsecond : AddsUp settings second between.1 between.2 others left) :
    AddsUp settings (first ++ second) log before (outcomes ++ others) left where
  written := by
    rw [List.map_append, List.sum_append, hfirst.written, hsecond.written,
      Settings.linesOf_append, List.length_append]
  errored := by
    rw [List.map_append, List.sum_append, hfirst.errored, hsecond.errored,
      Settings.failuresOf_append, List.length_append]
  discarded := by
    rw [List.map_append, List.sum_append, hfirst.discarded, hsecond.discarded,
      Settings.droppedOf, Settings.droppedOf, Settings.droppedOf, List.countP_append]
  errors := by
    obtain ⟨failures, hperm, hkept⟩ := hfirst.errors
    obtain ⟨more, hmore, hleft⟩ := hsecond.errors
    refine ⟨failures ++ more, ?_, ?_⟩
    · rw [Settings.failuresOf_append]
      exact hperm.append hmore
    · rw [hleft, hkept, ErrorLog.keep_append]
  workingDirectory := hsecond.workingDirectory.trans hfirst.workingDirectory
  texts := by
    intro location
    rw [hsecond.texts, hfirst.texts, hfirst.workingDirectory, Settings.linesAt_append,
      Connection.extended_append]

end AddsUp

namespace Settings.RowByRow

variable {settings : Settings} (hrows : settings.RowByRow) (hroot : settings.root ≠ "")

include hrows hroot

/-- A batch that can be committed adds up. -/
theorem addsUp_writeBatch {log : ErrorLog} (hpolicy : log.policy ≠ .stopPipeline)
    (batch : List Record) (before : Machine)
    (hcommitted : ∀ e, (settings.writeBatch batch false log before).1 ≠ .error (.commit e)) :
    ∃ outcome, (settings.writeBatch batch false log before).1 = .ok outcome ∧
      AddsUp settings batch log before [outcome]
        (settings.writeBatch batch false log before).2 := by
  have hplanned := hrows.planned? hpolicy batch
  obtain ⟨hfiles, hresult⟩ := writeBatch_of_planned hplanned before
  obtain ⟨done, rest, hsplit, hextended, hend, -⟩ := commit_cases hroot hplanned before
  have hlog := hrows.log_writeBatch hpolicy batch before
  generalize settings.writeBatch batch false log before = left at *
  generalize settings.commit (settings.plansOf batch) before = ended at *
  obtain ⟨e | committed, after⟩ := ended
  · exact absurd hresult (hcommitted e)
  · refine ⟨_, hresult, ?_⟩
    obtain ⟨hwritten, herrored, hdiscarded⟩ := hrows.counts_ofTables batch rfl
    rw [hend.mp rfl, List.append_nil] at hsplit
    rw [← hsplit, ← hfiles] at hextended
    constructor
    · rw [← hwritten]
      exact Nat.add_zero _
    · rw [← herrored]
      exact Nat.add_zero _
    · rw [← hdiscarded]
      exact Nat.add_zero _
    · exact ⟨_, hrows.routedOf_perm batch, hlog⟩
    · exact hextended.workingDirectory
    · exact hrows.text?_of_extended hroot hextended

end Settings.RowByRow

/-- No batch failed at its commit. -/
def Committed (results : List BatchResult) : Prop :=
  ∀ e, .error (.write (.commit e)) ∉ results

/-- Batches that can be committed add up to what becomes of each record. -/
theorem Settings.RowByRow.addsUp_writeBatches {settings : Settings} (hrows : settings.RowByRow)
    (hroot : settings.root ≠ "") {log : ErrorLog} (hpolicy : log.policy ≠ .stopPipeline)
    (batches : List (List Record)) (before : Machine)
    (hcommitted : Committed (settings.writeBatches false batches log before).1) :
    ∃ outcomes, (settings.writeBatches false batches log before).1 = outcomes.map .ok ∧
      AddsUp settings batches.flatten log before outcomes
        (settings.writeBatches false batches log before).2 := by
  induction batches generalizing log before with
  | nil => exact ⟨[], rfl, AddsUp.nil settings log before⟩
  | cons batch rest ih =>
      rw [Settings.writeBatches] at hcommitted ⊢
      simp only at hcommitted ⊢
      have hfirst : ∀ e, (settings.writeBatch batch false log before).1 ≠ .error (.commit e) := by
        intro e herror
        apply hcommitted e
        rw [herror]
        exact List.mem_cons_self
      obtain ⟨outcome, hok, hbatch⟩ := hrows.addsUp_writeBatch hroot hpolicy batch before hfirst
      generalize settings.writeBatch batch false log before = left at *
      -- The rest starts from a log that keeps failures under the same policy.
      obtain ⟨failures, -, hkept⟩ := hbatch.errors
      have hlater : left.2.1.policy ≠ .stopPipeline := by
        rwa [hkept, ErrorLog.policy_keep]
      obtain ⟨outcomes, hrest, hmore⟩ := ih hlater left.2.2 fun e herror =>
        hcommitted e (List.mem_cons_of_mem _ herror)
      refine ⟨outcome :: outcomes, ?_, hbatch.append hmore⟩
      rw [hok, hrest]
      rfl

/-- A sink in service that judges its records one by one, on an open source. -/
structure Service.RowByRow (config : Config) (service : Service (Timed Machine)) : Prop where
  reachable : service.Reachable config
  quiet : service.Quiet
  single : config.sink.useMultiRowOp = false
  proceeds : config.sink.rollbackOnError = false
  policy : service.world.session.errors.policy ≠ .stopPipeline
  sourceOpen : service.world.session.sourceClosed = false

/-- Two runs come to the same: every batch succeeds, the totals are the same, and so are the
error records but for their order, and the text of every file. -/
structure SameSums (first second : List BatchResult × World (Timed Machine)) : Prop where
  totals : ∃ outcomes others : List WriteOutcome,
    first.1 = outcomes.map .ok ∧ second.1 = others.map .ok ∧
      (outcomes.map WriteOutcome.written).sum = (others.map WriteOutcome.written).sum ∧
      (outcomes.map WriteOutcome.errored).sum = (others.map WriteOutcome.errored).sum ∧
      (outcomes.map WriteOutcome.discarded).sum = (others.map WriteOutcome.discarded).sum
  errors : first.2.session.errors.records.toList ~ second.2.session.errors.records.toList
  files : ∀ location,
    first.2.host.files.tree.text? location = second.2.host.files.tree.text? location

theorem single_of_ofConfig {config : Config} {settings : Settings}
    (hsettings : Settings.ofConfig config = .ok settings)
    (hsingle : config.sink.useMultiRowOp = false) : settings.spec.mode = .singleRow := by
  rw [spec_of_ofConfig hsettings]
  simp [WriterSpec.ofConfig, WriteMode.ofConfig, hsingle]

theorem proceeds_of_ofConfig {config : Config} {settings : Settings}
    (hsettings : Settings.ofConfig config = .ok settings)
    (hproceeds : config.sink.rollbackOnError = false) : settings.rollbackOnError = false := by
  rw [Settings.ofConfig] at hsettings
  split at hsettings
  · simp at hsettings
  · split at hsettings
    · simp at hsettings
    · rw [← Except.ok.inj hsettings]
      exact hproceeds

/-- No directory stands in the place of one of the two files. -/
def Free (machine : Machine) : Prop :=
  ∀ table, table = "a" ∨ table = "b" →
    machine.tree.get? [TableFile.fileName table] ≠ some .directory

/-- The two files can be written as often as one likes. -/
theorem commitFiles_of_free {machine : Machine} (hfree : Free machine)
    {files : List (TableFile × List String)}
    (hfiles : ∀ entry ∈ files, ∃ table, (table = "a" ∨ table = "b") ∧
      entry.1 = Settings.byTable.fileOf table) :
    let ended :=
      (Connection.commitFiles "/" files : StateM Machine (Except StoreError Unit)) machine
    ended.1 = .ok () ∧ Free ended.2 := by
  induction files generalizing machine with
  | nil => exact ⟨rfl, hfree⟩
  | cons entry rest ih =>
      obtain ⟨file, lines⟩ := entry
      obtain ⟨table, htable, rfl⟩ := hfiles (file, lines) List.mem_cons_self
      have hlocate : machine.tree.locateFile machine.workingDirectory
          (Path.join "/" (Settings.byTable.fileOf table).path) =
            .ok [TableFile.fileName table] := by
        rcases htable with rfl | rfl <;> rfl
      obtain ⟨text, hcommit⟩ : ∃ text, (Connection.commitFile "/"
          (Settings.byTable.fileOf table) lines : StateM Machine _) machine =
            (.ok (), { machine with
              tree := machine.tree.set [TableFile.fileName table] (.file text) }) :=
        Connection.commitFile_of_free (made_twoPlans machine htable) hlocate (hfree table htable)
      have hstill : Free { machine with
          tree := machine.tree.set [TableFile.fileName table] (.file text) } := by
        intro other hother
        by_cases hsame : other = table
        · rw [hsame, FileTree.get?_set_self _ (List.cons_ne_nil _ _)]
          simp
        · have hplace : [TableFile.fileName other] ≠ [TableFile.fileName table] :=
            fun hname => hsame (TableFile.fileName_injective (List.singleton_inj.mp hname))
          rw [FileTree.get?_set_of_ne _ hplace]
          exact hfree other hother
      rw [Connection.commitFiles, Connection.bind_run, hcommit]
      exact ih hstill fun later hlater => hfiles later (List.mem_cons_of_mem _ hlater)

/-- A sink at the root directory that writes a record to the table that it names, and
judges its records one by one. -/
def configOneByOne : Config :=
  { configByTable with sink := { configByTable.sink with rollbackOnError := false } }

def Settings.oneByOne : Settings := { Settings.byTable with rollbackOnError := false }

theorem found_oneByOne (machine : Machine) :
    Settings.found configOneByOne machine = (.ok Settings.oneByOne, machine) := rfl

theorem rowByRow_oneByOne : Settings.oneByOne.RowByRow := ⟨rfl, rfl⟩

/-- No commit fails while the two files are free. -/
theorem committed_of_free {batches : List (List Record)}
    (htables : ∀ record ∈ batches.flatten, ∀ table,
      Settings.oneByOne.resolve record = .ok table → table = "a" ∨ table = "b")
    {log : ErrorLog} (hpolicy : log.policy ≠ .stopPipeline) {machine : Machine}
    (hfree : Free machine) :
    Committed (Settings.oneByOne.writeBatches false batches log machine).1 := by
  induction batches generalizing log machine with
  | nil => exact fun e => List.not_mem_nil
  | cons batch rest ih =>
      have hplanned := rowByRow_oneByOne.planned? hpolicy batch
      have hfiles : ∀ entry ∈ Settings.oneByOne.waiting (Settings.oneByOne.plansOf batch),
          ∃ table, (table = "a" ∨ table = "b") ∧ entry.1 = Settings.byTable.fileOf table := by
        intro entry hentry
        obtain ⟨record, hrecord, table, hresolve, hfile⟩ :=
          rowByRow_oneByOne.exists_record hentry
        exact ⟨table, htables record (List.mem_append_left _ hrecord) table hresolve, hfile⟩
      obtain ⟨hok, hstill⟩ : (Settings.oneByOne.commit (Settings.oneByOne.plansOf batch)
            machine).1 = .ok () ∧
          Free (Settings.oneByOne.commit (Settings.oneByOne.plansOf batch) machine).2 :=
        commitFiles_of_free hfree hfiles
      obtain ⟨hwritten, hresult⟩ := Settings.writeBatch_of_planned hplanned machine
      have hlater : (Settings.oneByOne.writeBatch batch false log machine).2.1.policy ≠
          .stopPipeline := by
        rwa [rowByRow_oneByOne.log_writeBatch hpolicy, ErrorLog.policy_keep]
      rw [hok] at hresult
      rw [← hwritten] at hstill
      intro e hmem
      rw [Settings.writeBatches, hresult] at hmem
      rcases List.mem_cons.mp hmem with hhead | htail
      · simp [Except.mapError] at hhead
      · exact ih (fun record hrecord => htables record (List.mem_append_right _ hrecord)) hlater
          hstill e htail

namespace Service.RowByRow

variable {config : Config} {service : Service (Timed Machine)}

/-- The batches of a sink that judges its records one by one leave what their plans say. -/
theorem yields (hrows : service.RowByRow config) {settings : Settings}
    (hsettings : Settings.ofConfig config = .ok settings) (commands : List Command) :
    service.world.Ends (performAll service.sink commands) fun results after =>
      Yields Timed.files service.world after results
        (settings.writeBatches false (batchesOf commands) service.world.session.errors
          service.world.host.files) := by
  obtain ⟨own, hown, hkept⟩ := hrows.reachable.kept Timed.mirrors_files
  obtain rfl : own = settings := Except.ok.inj (hown.symm.trans hsettings)
  rw [← hrows.sourceOpen]
  exact ends_performAll Timed.mirrors_files hkept.serves (hkept.settled hrows.quiet) commands

/-- What is asked of a sink that judges its records one by one adds up. -/
theorem addsUp (hrows : service.RowByRow config) {settings : Settings}
    (hsettings : Settings.ofConfig config = .ok settings) (commands : List Command) :
    service.world.Ends (performAll service.sink commands) fun results after =>
      Committed results → ∃ outcomes, results = outcomes.map .ok ∧
        AddsUp settings (batchesOf commands).flatten service.world.session.errors
          service.world.host.files outcomes (after.session.errors, after.host.files) := by
  have hjudges : settings.RowByRow :=
    ⟨single_of_ofConfig hsettings hrows.single, proceeds_of_ofConfig hsettings hrows.proceeds⟩
  apply World.Ends.imp (hrows.yields hsettings commands)
  intro results after hyields hcommitted
  rw [hyields.results] at hcommitted
  rw [hyields.results, hyields.session, hyields.files]
  exact hjudges.addsUp_writeBatches (root_ne_of_ofConfig hsettings) hrows.policy _ _ hcommitted

/-- A list of records can be cut into batches anywhere.  Sinks that judge their records one
by one, and start from the same error records and files, come to the same, unless a
commit fails. -/
theorem sameSums_of_flatten_eq {first second : Service (Timed Machine)}
    (hfirst : first.RowByRow config) (hsecond : second.RowByRow config)
    (hsession : first.world.session = second.world.session)
    (hfiles : first.world.host.files = second.world.host.files)
    {commands others : List Command}
    (hrecords : (batchesOf commands).flatten = (batchesOf others).flatten)
    (hcommitted : Committed (first.world.run (performAll first.sink commands)).1)
    (hcommitted' : Committed (second.world.run (performAll second.sink others)).1) :
    SameSums (first.world.run (performAll first.sink commands))
      (second.world.run (performAll second.sink others)) := by
  obtain ⟨settings, hsettings, -⟩ := hfirst.reachable.kept Timed.mirrors_files
  obtain ⟨outcomes, hresults, hsums⟩ := hfirst.addsUp hsettings commands hcommitted
  obtain ⟨more, hresults', hsums'⟩ := hsecond.addsUp hsettings others hcommitted'
  generalize first.world.run (performAll first.sink commands) = left at *
  generalize second.world.run (performAll second.sink others) = right at *
  rw [hrecords, hsession, hfiles] at hsums
  obtain ⟨failures, hperm, hkept⟩ := hsums.errors
  obtain ⟨failures', hperm', hkept'⟩ := hsums'.errors
  constructor
  · exact ⟨outcomes, more, hresults, hresults', hsums.written.trans hsums'.written.symm,
      hsums.errored.trans hsums'.errored.symm, hsums.discarded.trans hsums'.discarded.symm⟩
  · simp only at hkept hkept'
    rw [hkept, hkept']
    exact ErrorLog.keep_perm _ (hperm.trans hperm'.symm)
  · exact fun location => (hsums.texts location).trans (hsums'.texts location).symm

/-- Four records, cut behind the first and before the last, or not at all. -/
theorem sameSums_fourRecords :
    let config := configOneByOne
    let lost : Record := { id := "lost", value := .obj [] }
    let uncut : List Command := [.batch [recordFor "a", lost, recordFor "b", recordFor "a"]]
    let cut : List Command :=
      [.batch [recordFor "a"], .sweep, .batch [lost, recordFor "b"], .batch [recordFor "a"]]
    ∃ service : Service (Timed Machine), service.RowByRow config ∧
      (batchesOf uncut).flatten = (batchesOf cut).flatten ∧
      Committed (service.world.run (performAll service.sink uncut)).1 ∧
      Committed (service.world.run (performAll service.sink cut)).1 ∧
      (∃ outcomes : List WriteOutcome,
        (service.world.run (performAll service.sink uncut)).1 = outcomes.map .ok ∧
          (outcomes.map WriteOutcome.written).sum = 3 ∧
          (outcomes.map WriteOutcome.errored).sum = 1) ∧
      SameSums (service.world.run (performAll service.sink uncut))
        (service.world.run (performAll service.sink cut)) := by
  intro config lost uncut cut
  obtain ⟨service, hservice, hquiet, hsession, hfiles, hsettings⟩ :=
    Service.exists_of_found Timed.mirrors_files ⟨({} : Machine), fun _ => 0⟩ (found_oneByOne {})
  have hrows : service.RowByRow config := by
    refine ⟨hservice, hquiet, rfl, rfl, ?_, ?_⟩
    · rw [hsession]
      simp
    · rw [hsession]
  have htables : ∀ record ∈ [recordFor "a", lost, recordFor "b", recordFor "a"], ∀ table,
      Settings.oneByOne.resolve record = .ok table → table = "a" ∨ table = "b" := by
    simp only [List.forall_mem_cons]
    refine ⟨?_, ?_, ?_, ?_, ?_⟩
    · exact fun table hresolve => .inl (Except.ok.inj hresolve).symm
    · exact fun table hresolve => nomatch hresolve
    · exact fun table hresolve => .inr (Except.ok.inj hresolve).symm
    · exact fun table hresolve => .inl (Except.ok.inj hresolve).symm
    · exact fun record hrecord => absurd hrecord List.not_mem_nil
  have hfree : Free service.world.host.files := by
    intro table _
    rw [hfiles, FileTree.get?_empty (List.cons_ne_nil _ _)]
    simp
  have hcommitted : ∀ commands : List Command,
      (batchesOf commands).flatten = [recordFor "a", lost, recordFor "b", recordFor "a"] →
        Committed (service.world.run (performAll service.sink commands)).1 := by
    intro commands hrecords
    rw [(hrows.yields hsettings commands).results]
    exact committed_of_free (hrecords ▸ htables) hrows.policy hfree
  obtain ⟨outcomes, hresults, hsums⟩ := hrows.addsUp hsettings uncut (hcommitted uncut rfl)
  exact ⟨service, hrows, rfl, hcommitted uncut rfl, hcommitted cut rfl,
    ⟨outcomes, hresults, hsums.written.trans rfl, hsums.errored.trans rfl⟩,
    sameSums_of_flatten_eq hrows hrows rfl rfl rfl (hcommitted uncut rfl) (hcommitted cut rfl)⟩

end Service.RowByRow

end TableRouting.JsonLines
