import TableRouting.Proofs.JsonLines.FileText
import TableRouting.Proofs.Sink.Cuts

/-!
# Table files stay where they belong

The files of the tables of a sink stand side by side in one directory: the root, or the
directory of the schema in it.  No name that is built from a record leads elsewhere, since
one that would is refused.  Whatever batches are written, a file that changes is that of a
table to which one of their records resolves; it keeps the text that it had, and gets lines
of this table.
-/

namespace TableRouting.JsonLines

namespace Settings

/-- The directory of the table files: the root, or the directory of the schema in it. -/
def home (settings : Settings) (workingDirectory : Location) : Location :=
  let root := FileTree.place (if Path.isAbsolute settings.root then [] else workingDirectory)
    (Path.steps settings.root)
  if settings.spec.schema = "" then root else root ++ [settings.spec.schema]

/-- The file of a table is in the directory of the table files, under its own name. -/
theorem placeOf_tablePath {settings : Settings} (hroot : settings.root ≠ "") {table : String}
    (hfit : (settings.fileOf table).Fit) (workingDirectory : Location) :
    FileTree.placeOf workingDirectory (tablePath settings.root settings.spec.schema table) =
      settings.home workingDirectory ++ [TableFile.fileName table] := by
  have hplace := hfit.place_eq hroot workingDirectory
  rw [TableFile.place, fileOf] at hplace
  rw [tablePath, hplace, FileTree.place_append, home, TableFile.folders]
  simp only [String.isEmpty_iff]
  by_cases hschema : settings.spec.schema = ""
  · rw [if_pos hschema, if_pos hschema, FileTree.place]
  · rw [if_neg hschema, if_neg hschema]
    have hfault : nameFault? settings.spec.schema = none := hfit.schema.resolve_left hschema
    obtain ⟨hdot, hdots⟩ := ne_dots_of_nameFault? hfault
    rw [FileTree.place_name _ hdot hdots]

/-- At a location is the file of a table that one of several records resolves to. -/
structure FileFor (settings : Settings) (records : List Record) (workingDirectory : Location)
    (table : String) (location : Location) : Prop where
  resolved : ∃ record ∈ records, settings.resolve record = .ok table
  fit : (settings.fileOf table).Fit
  path : location =
    FileTree.placeOf workingDirectory (tablePath settings.root settings.spec.schema table)
  /-- It is a direct child of the one directory. -/
  child : location = settings.home workingDirectory ++ [TableFile.fileName table]

/-- A file has got lines of a table behind the text that it had. -/
structure Gains (settings : Settings) (table : String) (before after : Option String)
    (lines : List TableLine) : Prop where
  text : after = some (before.getD "" ++ Connection.linesText (lines.map TableLine.render))
  table : ∀ line ∈ lines, line.table = table
  schema : ∀ line ∈ lines, line.schema = settings.spec.schema
  rows : ∀ line ∈ lines, line.rows ≠ []
  /-- Each of them is one line of the file. -/
  single : ∀ line ∈ lines, '\n' ∉ line.render.toList

variable {settings : Settings} {records others : List Record} {workingDirectory : Location}
  {location : Location} {table other : String}

namespace FileFor

theorem mono (hfile : settings.FileFor records workingDirectory table location)
    (hsub : ∀ record ∈ records, record ∈ others) :
    settings.FileFor others workingDirectory table location where
  resolved := by
    obtain ⟨record, hrecord, hresolve⟩ := hfile.resolved
    exact ⟨record, hsub record hrecord, hresolve⟩
  fit := hfile.fit
  path := hfile.path
  child := hfile.child

/-- Two tables have two files. -/
theorem table_eq (hfirst : settings.FileFor records workingDirectory table location)
    (hsecond : settings.FileFor others workingDirectory other location) : table = other := by
  have hchildren := hfirst.child.symm.trans hsecond.child
  exact TableFile.fileName_injective (List.singleton_inj.mp (List.append_cancel_left hchildren))

end FileFor

theorem Gains.append {before between after : Option String} {first second : List TableLine}
    (hfirst : settings.Gains table before between first)
    (hsecond : settings.Gains table between after second) :
    settings.Gains table before after (first ++ second) where
  text := by
    rw [hsecond.text, hfirst.text, Option.getD_some, List.map_append,
      Connection.linesText_append, String.append_assoc]
  table := List.forall_mem_append.mpr ⟨hfirst.table, hsecond.table⟩
  schema := List.forall_mem_append.mpr ⟨hfirst.schema, hsecond.schema⟩
  rows := List.forall_mem_append.mpr ⟨hfirst.rows, hsecond.rows⟩
  single := List.forall_mem_append.mpr ⟨hfirst.single, hsecond.single⟩

end Settings

/-- Files have changed in their own places only, and those that did got lines of their own
tables. -/
structure Confined (settings : Settings) (records : List Record) (before after : Machine) :
    Prop where
  workingDirectory : after.workingDirectory = before.workingDirectory
  changed : ∀ location, after.tree.text? location ≠ before.tree.text? location →
    ∃ table lines, settings.FileFor records before.workingDirectory table location ∧
      lines ≠ [] ∧
      settings.Gains table (before.tree.text? location) (after.tree.text? location) lines
  /-- No two tables share a file. -/
  apart : ∀ location first second,
    settings.FileFor records before.workingDirectory first location →
    settings.FileFor records before.workingDirectory second location → first = second

namespace Confined

variable {settings : Settings} {records others : List Record} {before between after : Machine}

theorem refl (settings : Settings) (records : List Record) (machine : Machine) :
    Confined settings records machine machine where
  workingDirectory := rfl
  changed := fun _ hchanged => absurd rfl hchanged
  apart := fun _ _ _ hfirst hsecond => hfirst.table_eq hsecond

theorem append (hfirst : Confined settings records before between)
    (hsecond : Confined settings others between after) :
    Confined settings (records ++ others) before after where
  workingDirectory := hsecond.workingDirectory.trans hfirst.workingDirectory
  changed := by
    intro location hchanged
    have hsecond := hsecond.changed location
    rw [hfirst.workingDirectory] at hsecond
    have hleft : ∀ record ∈ records, record ∈ records ++ others :=
      fun _ => List.mem_append_left others
    have hright : ∀ record ∈ others, record ∈ records ++ others :=
      fun _ => List.mem_append_right records
    by_cases hbetween : between.tree.text? location = before.tree.text? location
    · rw [hbetween] at hsecond
      obtain ⟨table, lines, hfile, hgains⟩ := hsecond hchanged
      exact ⟨table, lines, hfile.mono hright, hgains⟩
    · obtain ⟨table, lines, hfile, hlines, hgains⟩ := hfirst.changed location hbetween
      by_cases hafter : after.tree.text? location = between.tree.text? location
      · rw [hafter]
        exact ⟨table, lines, hfile.mono hleft, hlines, hgains⟩
      · -- Both parts have written to the file, so it was for the same table.
        obtain ⟨other, more, hfile', -, hgains'⟩ := hsecond hafter
        obtain rfl := hfile.table_eq hfile'
        exact ⟨table, lines ++ more, hfile.mono hleft, by simp [hlines], hgains.append hgains'⟩
  apart := fun _ _ _ hfirst hsecond => hfirst.table_eq hsecond

end Confined

namespace Settings

variable {settings : Settings} {batch : List Record} {sourceClosed : Bool} {log : ErrorLog}

/-- Every plan is that of a group. -/
theorem exists_group_of_runGroups {groups : List Group} {plans : List GroupPlan}
    (hrun : (settings.runGroups groups log).1 = .ok plans) {plan : GroupPlan}
    (hplan : plan ∈ plans) : ∃ group ∈ groups, settings.planGroup group = .ok plan := by
  induction groups generalizing log plans with
  | nil =>
      obtain rfl := Except.ok.inj hrun
      exact absurd hplan List.not_mem_nil
  | cons group rest ih =>
      rw [runGroups] at hrun
      cases hfirst : settings.runGroup group log with
      | mk result between =>
          rw [hfirst] at hrun
          cases result with
          | error e => simp at hrun
          | ok first =>
              simp only at hrun
              cases hrest : settings.runGroups rest between with
              | mk result last =>
                  rw [hrest] at hrun
                  cases result with
                  | error e => simp at hrun
                  | ok more =>
                      obtain rfl := Except.ok.inj hrun
                      rcases List.mem_cons.mp hplan with rfl | hmore
                      · have hgroup := planGroup_of_runGroup (congrArg Prod.fst hfirst)
                        exact ⟨group, List.mem_cons_self, hgroup⟩
                      · obtain ⟨other, hother, hplanned⟩ := ih (congrArg Prod.fst hrest) hmore
                        exact ⟨other, List.mem_cons_of_mem _ hother, hplanned⟩

theorem exists_group_of_planned? {plans : List GroupPlan}
    (hplanned : settings.planned? batch sourceClosed log = some plans) {plan : GroupPlan}
    (hplan : plan ∈ plans) :
    ∃ group ∈ settings.groups batch, settings.planGroup group = .ok plan := by
  rw [planned?] at hplanned
  split at hplanned
  · simp at hplanned
  · rename_i routed _
    split at hplanned
    · simp at hplanned
    · cases hrun : (settings.runGroups (settings.groups batch) routed).1 with
      | error e => simp [hrun, Except.toOption] at hplanned
      | ok made =>
          rw [hrun] at hplanned
          obtain rfl := Option.some.inj hplanned
          exact exists_group_of_runGroups hrun hplan

/-- Every line of a plan holds a row. -/
theorem rows_ne_nil_of_planGroup {group : Group} {plan : GroupPlan}
    (hplan : settings.planGroup group = .ok plan) {line : TableLine} (hline : line ∈ plan.lines) :
    line.rows ≠ [] := by
  rw [planGroup] at hplan
  split at hplan
  · split at hplan
    · simp at hplan
    · obtain rfl := Except.ok.inj hplan
      exact absurd hline List.not_mem_nil
  · split at hplan
    · simp at hplan
    · obtain rfl := Except.ok.inj hplan
      exact TableWriter.rows_ne_nil hline

/-- A file that waits for lines is that of a table of the batch, and gets lines of this
table. -/
theorem fileFor_of_mem_waiting (hroot : settings.root ≠ "") {plans : List GroupPlan}
    (hplanned : settings.planned? batch sourceClosed log = some plans)
    {entry : TableFile × List String} (hentry : entry ∈ settings.waiting plans)
    (workingDirectory : Location) :
    ∃ table lines, entry.2 = lines.map TableLine.render ∧
      settings.FileFor batch workingDirectory table
        (entry.1.place settings.root workingDirectory) ∧
      lines ≠ [] ∧
      ∀ before, settings.Gains table before
        (some (before.getD "" ++ Connection.linesText entry.2)) lines := by
  obtain ⟨file, rendered⟩ := entry
  have htables := nodup_of_planned? hplanned
  obtain ⟨hfit, -⟩ := fit_of_mem_waiting (accounts_of_planned? hplanned) htables hentry
  obtain ⟨plan, hplan, hlines, rfl, rfl⟩ := (mem_waiting htables).mp hentry
  obtain ⟨group, hgroup, hgiven⟩ := exists_group_of_planned? hplanned hplan
  have haccount := accounts_of_planGroup hgiven
  -- The table is the key of a group, and so comes from a record.
  obtain ⟨pair, hpair, hkey⟩ := List.mem_map.mp (Grouping.mem_group.mp hgroup).1
  obtain ⟨hrecord, hresolve⟩ := mem_of_mem_resolved hpair
  rw [hkey, ← haccount.table] at hresolve
  refine ⟨plan.outcome.table, plan.lines, rfl, ?_, hlines, ?_⟩
  · exact ⟨⟨pair.2, hrecord, hresolve⟩, hfit, rfl,
      placeOf_tablePath hroot hfit workingDirectory⟩
  · intro before
    exact ⟨rfl, fun line hline => (haccount.lines line hline).1,
      fun line hline => (haccount.lines line hline).2,
      fun line hline => rows_ne_nil_of_planGroup hgiven hline,
      fun line _ => line.newline_not_mem_render⟩

/-- A batch changes no file but those of its tables, whether or not it succeeds. -/
theorem confined_writeBatch (hroot : settings.root ≠ "") (batch : List Record)
    (sourceClosed : Bool) (log : ErrorLog) (before : Machine) :
    Confined settings batch before (settings.writeBatch batch sourceClosed log before).2.2 := by
  cases hplanned : settings.planned? batch sourceClosed log with
  | none =>
      rw [(writeBatch_of_not_planned hplanned before).1]
      exact Confined.refl settings batch before
  | some plans =>
      obtain ⟨written, rest, hsplit, hextended, -⟩ := commit_cases hroot hplanned before
      rw [(writeBatch_of_planned hplanned before).1]
      generalize (settings.commit plans before).2 = after at hextended
      refine ⟨hextended.workingDirectory, ?_, fun _ _ _ hfirst hsecond => hfirst.table_eq hsecond⟩
      intro location hchanged
      obtain ⟨entry, hentry, rfl⟩ : ∃ entry ∈ written,
          location = entry.1.place settings.root before.workingDirectory := by
        by_contra hnone
        apply hchanged
        apply hextended.elsewhere
        exact fun entry hentry hsame => hnone ⟨entry, hentry, hsame⟩
      have hwaits : entry ∈ settings.waiting plans := by
        rw [hsplit]
        exact List.mem_append_left rest hentry
      obtain ⟨table, lines, -, hfile, hlines, hgains⟩ :=
        fileFor_of_mem_waiting hroot hplanned hwaits before.workingDirectory
      rw [hextended.lines entry hentry]
      exact ⟨table, lines, hfile, hlines, hgains _⟩

theorem confined_writeBatches (hroot : settings.root ≠ "") (sourceClosed : Bool)
    (batches : List (List Record)) (log : ErrorLog) (before : Machine) :
    Confined settings batches.flatten before
      (settings.writeBatches sourceClosed batches log before).2.2 := by
  induction batches generalizing log before with
  | nil => exact Confined.refl settings [] before
  | cons batch rest ih =>
      rw [writeBatches, List.flatten_cons]
      exact (confined_writeBatch hroot batch sourceClosed log before).append (ih _ _)

end Settings

variable {config : Config} {service : Service (Timed Machine)}

def Service.filesAfter (service : Service (Timed Machine)) (commands : List Command) : Machine :=
  (service.world.run (performAll service.sink commands)).2.host.files

theorem Service.Reachable.filesAfter_eq (hservice : service.Reachable config)
    (hquiet : service.Quiet) {settings : Settings}
    (hsettings : Settings.ofConfig config = .ok settings) (commands : List Command) :
    service.filesAfter commands =
      (settings.writeBatches service.world.session.sourceClosed (batchesOf commands)
        service.world.session.errors service.world.host.files).2.2 := by
  obtain ⟨own, hown, hkept⟩ := hservice.kept Timed.mirrors_files
  obtain rfl : own = settings := Except.ok.inj (hown.symm.trans hsettings)
  have hends := ends_performAll Timed.mirrors_files hkept.serves (hkept.settled hquiet) commands
  exact hends.files

/-- The first of two files for two tables is made. -/
theorem text?_commit_twoPlans :
    (Settings.byTable.commit twoPlans ({} : Machine)).2.tree.text? ["a.jsonl"] ≠ none := by
  obtain ⟨first, second, hwaiting⟩ := waiting_twoPlans
  obtain ⟨written, rest, hsplit, hextended, -, hbegins⟩ :=
    Settings.commit_cases (by decide) planned_twoRecords {}
  have hwritten : written ≠ [] := by
    rw [hbegins, hwaiting]
    refine ⟨({} : Machine).tree, ["a.jsonl"], made_twoPlans {} (.inl rfl), rfl, ?_⟩
    rw [FileTree.get?_empty (by decide)]
    simp
  obtain ⟨entry, more, rfl⟩ := List.exists_cons_of_ne_nil hwritten
  obtain ⟨rfl, -⟩ := List.cons.inj (hwaiting.symm.trans hsplit)
  rw [show ["a.jsonl"] = (Settings.byTable.fileOf "a").place Settings.byTable.root [] from rfl,
    hextended.lines _ List.mem_cons_self]
  simp

/-- Whatever a sink in service is asked to do, each of its batches changes no file but those
of its own tables, and none of the lines that they leave is in the file of another table. -/
theorem Service.Reachable.confined (hservice : service.Reachable config) (hquiet : service.Quiet)
    (commands : List Command) (batch : List Record) :
    ∃ settings, Settings.ofConfig config = .ok settings ∧
      Confined settings batch (service.filesAfter commands)
        (service.filesAfter (commands ++ [.batch batch])) ∧
      Confined settings (batchesOf (commands ++ [.batch batch])).flatten service.world.host.files
        (service.filesAfter (commands ++ [.batch batch])) := by
  obtain ⟨settings, hsettings, -⟩ := hservice.kept Timed.mirrors_files
  have hroot := root_ne_of_ofConfig hsettings
  have hfiles := hservice.filesAfter_eq hquiet hsettings
  refine ⟨settings, hsettings, ?_, ?_⟩
  · have hbatches : batchesOf (commands ++ [.batch batch]) = batchesOf commands ++ [batch] :=
      List.filterMap_append
    rw [hfiles, hfiles, hbatches, writeBatches_append]
    exact Settings.confined_writeBatch hroot batch _ _ _
  · rw [hfiles]
    exact Settings.confined_writeBatches hroot _ _ _ _

/-- A batch for two tables makes a file for the first of them, behind a sweep. -/
theorem Service.Reachable.confined_twoRecords :
    ∃ service : Service (Timed Machine), service.Reachable configByTable ∧ service.Quiet ∧
      service.world.host.files = {} ∧
      (service.filesAfter [.sweep, .batch twoRecords]).tree.text? ["a.jsonl"] ≠ none ∧
      ∃ settings, Settings.ofConfig configByTable = .ok settings ∧ settings.home [] = [] ∧
        Confined settings twoRecords (service.filesAfter [.sweep])
          (service.filesAfter [.sweep, .batch twoRecords]) ∧
        Confined settings twoRecords service.world.host.files
          (service.filesAfter [.sweep, .batch twoRecords]) := by
  obtain ⟨service, hservice, hquiet, hsession, hfiles, hsettings⟩ :=
    Service.exists_of_found Timed.mirrors_files ⟨({} : Machine), fun _ => 0⟩ (found_byTable {})
  obtain ⟨own, hown, hbatch, hall⟩ := hservice.confined hquiet [.sweep] twoRecords
  obtain rfl : own = Settings.byTable := Except.ok.inj (hown.symm.trans hsettings)
  refine ⟨service, hservice, hquiet, hfiles, ?_, Settings.byTable, hsettings, rfl, hbatch, hall⟩
  have hlast : service.filesAfter [.sweep, .batch twoRecords] =
      (Settings.byTable.writeBatch twoRecords false {} ({} : Machine)).2.2 := by
    rw [hservice.filesAfter_eq hquiet hsettings, hsession, hfiles]
    rfl
  rw [hlast, (Settings.writeBatch_of_planned planned_twoRecords _).1]
  exact text?_commit_twoPlans

end TableRouting.JsonLines
