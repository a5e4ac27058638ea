import TableRouting.Proofs.FileTree.Changes
import TableRouting.Proofs.FileTree.Paths

/-!
# Committing lines to files

A commit takes its files one after the other, and appends to each the lines that
wait for it.  It leaves every file before the first that fails with its lines, and
every other file as it was.
-/

namespace TableRouting.JsonLines

namespace TableFile

def place (root : String) (workingDirectory : Location) (file : TableFile) : Location :=
  FileTree.placeOf workingDirectory (Path.join root file.path)

theorem Fit.place_eq {file : TableFile} (hfit : file.Fit) {root : String} (hroot : root ≠ "")
    (workingDirectory : Location) :
    file.place root workingDirectory =
      FileTree.place (if Path.isAbsolute root then [] else workingDirectory)
        (Path.steps root ++ file.folders) ++ [fileName file.table] := by
  rw [place, FileTree.placeOf, Path.isAbsolute_join hroot hfit.fileSteps_path.1,
    hfit.fileSteps_join hroot, FileTree.place_append, FileTree.place_name]
  · exact fileName_ne (by decide)
  · exact fileName_ne (by decide)

/-- The files of two tables of a schema are in different places. -/
theorem Fit.eq_of_place_eq {first second : TableFile} (hfirst : first.Fit) (hsecond : second.Fit)
    (hschema : first.schema = second.schema) {root : String} (hroot : root ≠ "")
    {workingDirectory : Location}
    (hplace : first.place root workingDirectory = second.place root workingDirectory) :
    first = second := by
  rw [hfirst.place_eq hroot, hsecond.place_eq hroot] at hplace
  have hnames := (List.append_inj' hplace rfl).2
  have htable : first.table = second.table := fileName_injective (List.singleton_inj.mp hnames)
  cases first
  cases second
  rw [mk.injEq]
  exact ⟨hschema, htable⟩

end TableFile

namespace Connection

/-- Each of these files has got its lines, and no other file has changed. -/
structure Extended (root : String) (files : List (TableFile × List String))
    (machine after : Machine) : Prop where
  workingDirectory : after.workingDirectory = machine.workingDirectory
  lines : ∀ entry ∈ files,
    after.tree.text? (entry.1.place root machine.workingDirectory) =
      some ((machine.tree.text? (entry.1.place root machine.workingDirectory)).getD "" ++
        linesText entry.2)
  elsewhere : ∀ location,
    (∀ entry ∈ files, location ≠ entry.1.place root machine.workingDirectory) →
      after.tree.text? location = machine.tree.text? location

variable {root : String} {machine between after : Machine}
  {files : List (TableFile × List String)}

theorem Extended.nil (hdirectory : after.workingDirectory = machine.workingDirectory)
    (htexts : ∀ location, after.tree.text? location = machine.tree.text? location) :
    Extended root [] machine after where
  workingDirectory := hdirectory
  lines := fun _ hentry => absurd hentry List.not_mem_nil
  elsewhere := fun location _ => htexts location

theorem Extended.cons {entry : TableFile × List String}
    (hfirst : Extended root [entry] machine between) (hrest : Extended root files between after)
    (hplace : entry.1.place root machine.workingDirectory ∉
      files.map fun other => other.1.place root machine.workingDirectory) :
    Extended root (entry :: files) machine after := by
  have hdirectory := hfirst.workingDirectory
  have hlines := hrest.lines
  have helsewhere := hrest.elsewhere
  rw [hdirectory] at hlines helsewhere
  constructor
  · exact hrest.workingDirectory.trans hdirectory
  · intro other hother
    rcases List.mem_cons.mp hother with rfl | hlater
    · rw [helsewhere]
      · exact hfirst.lines other List.mem_cons_self
      · intro later hlater hsame
        exact hplace (List.mem_map.mpr ⟨later, hlater, hsame.symm⟩)
    · rw [hlines other hlater, hfirst.elsewhere]
      intro same hsame hplaces
      rw [List.mem_singleton.mp hsame] at hplaces
      exact hplace (List.mem_map.mpr ⟨other, hlater, hplaces⟩)
  · intro location hlocation
    rw [helsewhere location fun later hlater => hlocation later (List.mem_cons_of_mem _ hlater)]
    apply hfirst.elsewhere
    intro same hsame
    rw [List.mem_singleton.mp hsame]
    exact hlocation entry List.mem_cons_self

theorem bind_run {α β : Type} {x : StateM Machine α} {f : α → StateM Machine β} :
    (x >>= f) machine = f (x machine).1 (x machine).2 := rfl

theorem createDirAll_run (path : String) :
    (Host.createDirAll path : StateM Machine (Except FileError Unit)) machine =
      ((machine.tree.createDirAll machine.workingDirectory path).1,
        { machine with tree := (machine.tree.createDirAll machine.workingDirectory path).2 }) :=
  rfl

theorem append_run (path text : String) :
    (Host.append path text : StateM Machine (Except FileError Unit)) machine =
      match machine.tree.writeFile machine.workingDirectory path (· ++ text) with
      | .ok tree => (.ok (), { machine with tree })
      | .error e => (.error e, machine) :=
  rfl

section

variable {file : TableFile} {lines : List String} {tree last : FileTree}
  (hmade : machine.tree.createDirAll machine.workingDirectory
    ((Path.parent? (Path.join root file.path)).getD "") = (.ok (), tree))

include hmade

/-- With its directory in place, a file that can be written gets its lines. -/
theorem commitFile_of_write
    (hwrite : tree.writeFile machine.workingDirectory (Path.join root file.path)
      (· ++ linesText lines) = .ok last) :
    (commitFile root file lines : StateM Machine _) machine =
      (.ok (), { machine with tree := last }) := by
  simp only [commitFile, bind_run, createDirAll_run, hmade, append_run, hwrite]
  rfl

theorem commitFile_of_fault {e : FileError}
    (hfault : tree.writeFile machine.workingDirectory (Path.join root file.path)
      (· ++ linesText lines) = .error e) :
    ∃ failure, (commitFile root file lines : StateM Machine _) machine =
      (.error failure, { machine with tree }) := by
  simp only [commitFile, bind_run, createDirAll_run, hmade, append_run, hfault]
  exact ⟨_, rfl⟩

variable {location : Location}
  (hlocate : tree.locateFile machine.workingDirectory (Path.join root file.path) = .ok location)

include hlocate

theorem commitFile_of_nothing (hnothing : tree.get? location = none) :
    (commitFile root file lines : StateM Machine _) machine =
      (.ok (), { machine with tree := tree.set location (.file (linesText lines)) }) := by
  apply commitFile_of_write hmade
  rw [FileTree.writeFile, hlocate]
  simp [hnothing]

theorem commitFile_of_free (hfree : tree.get? location ≠ some .directory) :
    ∃ text, (commitFile root file lines : StateM Machine _) machine =
      (.ok (), { machine with tree := tree.set location (.file text) }) := by
  cases hentry : tree.get? location with
  | none => exact ⟨_, commitFile_of_nothing hmade hlocate hentry⟩
  | some entry =>
      cases entry with
      | directory => exact absurd hentry hfree
      | file text =>
          refine ⟨text ++ linesText lines, commitFile_of_write hmade ?_⟩
          rw [FileTree.writeFile, hlocate]
          simp only [hentry]

theorem commitFile_of_directory (hdirectory : tree.get? location = some .directory) :
    ∃ failure, (commitFile root file lines : StateM Machine _) machine =
      (.error failure, { machine with tree }) := by
  have hfault : tree.writeFile machine.workingDirectory (Path.join root file.path)
      (· ++ linesText lines) = .error .isDirectory := by
    rw [FileTree.writeFile, hlocate]
    simp only [hdirectory]
  exact commitFile_of_fault hmade hfault

end

/-- A file can be written: the directory that it is in is there or can be made, and no
directory stands in the place of the file. -/
def Writable (root : String) (machine : Machine) (file : TableFile) : Prop :=
  ∃ tree location,
    machine.tree.createDirAll machine.workingDirectory
      ((Path.parent? (Path.join root file.path)).getD "") = (.ok (), tree) ∧
    tree.locateFile machine.workingDirectory (Path.join root file.path) = .ok location ∧
    tree.get? location ≠ some .directory

/-- Committing the lines of a file appends them if the file can be written, and changes
no file if not. -/
theorem commitFile_cases (root : String) (file : TableFile) (lines : List String)
    (machine : Machine) :
    let ended := (commitFile root file lines : StateM Machine _) machine
    (Writable root machine file ∧ ended.1 = .ok () ∧
        Extended root [(file, lines)] machine ended.2) ∨
      (¬ Writable root machine file ∧ (∃ e, ended.1 = .error e) ∧
        Extended root [] machine ended.2) := by
  have hgrows := FileTree.grows_createDirAll machine.tree machine.workingDirectory
    ((Path.parent? (Path.join root file.path)).getD "")
  cases hmade : machine.tree.createDirAll machine.workingDirectory
      ((Path.parent? (Path.join root file.path)).getD "") with
  | mk result tree =>
      rw [hmade] at hgrows
      cases result with
      | error e =>
          right
          simp only [Writable, commitFile, bind_run, createDirAll_run, hmade]
          exact ⟨by simp, ⟨_, rfl⟩, Extended.nil rfl hgrows.text?⟩
      | ok made =>
          have hwritable : Writable root machine file ↔
              ∃ last, tree.writeFile machine.workingDirectory (Path.join root file.path)
                (· ++ linesText lines) = .ok last := by
            rw [FileTree.exists_writeFile_iff, Writable, hmade]
            simp
          rw [hwritable]
          cases hwrite : tree.writeFile machine.workingDirectory (Path.join root file.path)
              (· ++ linesText lines) with
          | error e =>
              right
              obtain ⟨failure, hcommit⟩ := commitFile_of_fault hmade hwrite
              rw [hcommit]
              exact ⟨by simp, ⟨failure, rfl⟩, Extended.nil rfl hgrows.text?⟩
          | ok last =>
              left
              have hwrites := FileTree.writes_writeFile hwrite
              rw [commitFile_of_write hmade hwrite]
              refine ⟨⟨last, rfl⟩, rfl, rfl, ?_, ?_⟩
              · intro entry hentry
                rw [List.mem_singleton.mp hentry, ← hgrows.text?]
                exact hwrites.here
              · intro location hlocation
                rw [← hgrows.text?]
                exact hwrites.elsewhere location (hlocation (file, lines) List.mem_cons_self)

def canBegin (root : String) (machine : Machine) : List (TableFile × List String) → Prop
  | [] => False
  | (file, _) :: _ => Writable root machine file

/-- A commit gets through all of its files, or through those before one that fails. -/
theorem commitFiles_cases (root : String) (files : List (TableFile × List String))
    (machine : Machine)
    (hplaces : (files.map fun entry => entry.1.place root machine.workingDirectory).Nodup) :
    let ended := (commitFiles root files : StateM Machine (Except StoreError Unit)) machine
    ∃ written rest, files = written ++ rest ∧ Extended root written machine ended.2 ∧
      (ended.1 = .ok () ↔ rest = []) ∧ (written ≠ [] ↔ canBegin root machine files) := by
  induction files generalizing machine with
  | nil =>
      refine ⟨[], [], rfl, Extended.nil rfl fun _ => rfl, ?_, ?_⟩
      · exact ⟨fun _ => rfl, fun _ => rfl⟩
      · exact ⟨fun hne => hne rfl, False.elim⟩
  | cons entry rest ih =>
      obtain ⟨file, lines⟩ := entry
      obtain ⟨hplace, hrest⟩ := List.nodup_cons.mp hplaces
      have hcases := commitFile_cases root file lines machine
      simp only [commitFiles, bind_run, canBegin]
      generalize (commitFile root file lines : StateM Machine (Except StoreError Unit)) machine =
        first at hcases
      obtain ⟨result, between⟩ := first
      rcases hcases with ⟨hwritable, hok, hextended⟩ | ⟨hblocked, ⟨e, herror⟩, hextended⟩
      · simp only at hok hextended
        subst hok
        rw [← hextended.workingDirectory] at hrest
        obtain ⟨written, later, hsplit, hafter, hend, -⟩ := ih between hrest
        refine ⟨(file, lines) :: written, later, congrArg _ hsplit, ?_, hend, ?_⟩
        · apply hextended.cons hafter
          intro hmem
          apply hplace
          rw [hsplit, List.map_append]
          exact List.mem_append_left _ hmem
        · exact ⟨fun _ => hwritable, fun _ => List.cons_ne_nil _ _⟩
      · simp only at herror hextended
        subst herror
        have hfailed : (.error e : Except StoreError Unit) ≠ .ok () := by simp
        refine ⟨[], (file, lines) :: rest, rfl, hextended, ?_, ?_⟩
        · exact ⟨fun h => absurd h hfailed, fun h => absurd h (List.cons_ne_nil _ _)⟩
        · exact ⟨fun hne => absurd rfl hne, fun h => absurd h hblocked⟩

theorem linesText_append (first second : List String) :
    linesText (first ++ second) = linesText first ++ linesText second := by
  rw [linesText, List.map_append, String.join_append]
  rfl

def extended (text : Option String) (lines : List String) : Option String :=
  if lines = [] then text else some (text.getD "" ++ linesText lines)

@[simp] theorem extended_nil (text : Option String) : extended text [] = text := rfl

theorem extended_of_ne {lines : List String} (hlines : lines ≠ []) (text : Option String) :
    extended text lines = some (text.getD "" ++ linesText lines) :=
  if_neg hlines

theorem extended_append (text : Option String) (first second : List String) :
    extended text (first ++ second) = extended (extended text first) second := by
  by_cases hfirst : first = []
  · rw [hfirst, List.nil_append, extended_nil]
  · by_cases hsecond : second = []
    · rw [hsecond, List.append_nil, extended_nil]
    · rw [extended_of_ne hfirst, extended_of_ne hsecond, extended_of_ne (by simp [hfirst]),
        linesText_append, Option.getD_some, String.append_assoc]

theorem linesText_ne {lines : List String} (hlines : lines ≠ []) : linesText lines ≠ "" := by
  obtain ⟨first, rest, rfl⟩ := List.exists_cons_of_ne_nil hlines
  intro hempty
  have hlist := congrArg String.toList hempty
  simp [linesText] at hlist

/-- A file that gets a line has another text than before. -/
theorem Extended.text?_ne {entry : TableFile × List String}
    (hextended : Extended root files machine after) (hentry : entry ∈ files)
    (hlines : entry.2 ≠ []) :
    after.tree.text? (entry.1.place root machine.workingDirectory) ≠
      machine.tree.text? (entry.1.place root machine.workingDirectory) := by
  rw [hextended.lines entry hentry]
  cases machine.tree.text? (entry.1.place root machine.workingDirectory) with
  | none => simp
  | some text =>
      intro hsame
      have hlists := congrArg String.toList (Option.some.inj hsame)
      rw [Option.getD_some, String.toList_append] at hlists
      have hnothing := List.append_right_eq_self.mp hlists
      exact linesText_ne hlines (String.toList_injective hnothing)

end Connection

end TableRouting.JsonLines
