import Mathlib.Data.List.Nodup
import TableRouting.Proofs.Grouping
import TableRouting.Proofs.JsonLines.Committing

/-!
# A connection is a transaction log

A connection is called to add lines, to take savepoints and go back to them, to drop
the lines that wait and to commit them.  Whatever the order of the calls, going back to
a savepoint brings back the lines that waited then, and a commit gives every file the
lines that wait for it.  After a run of calls each file has its first text and behind it
the lines that were committed for it, in the order in which they were issued.
-/

namespace TableRouting.JsonLines

namespace TableFile

/-- A file is below the place of the root, in the directories that its names say. -/
theorem Fit.place_split {file : TableFile} (hfit : file.Fit) (root : String)
    (workingDirectory : Location) :
    file.place root workingDirectory =
      FileTree.place (if Path.isAbsolute root then [] else workingDirectory) (Path.steps root) ++
        (file.folders ++ [fileName file.table]) := by
  have hfolders (here : Location) : FileTree.place here file.folders = here ++ file.folders := by
    rw [folders]
    split
    · rw [List.append_nil, FileTree.place]
    · rename_i hschema
      have hfault := hfit.schema.resolve_left (by simpa using hschema)
      obtain ⟨hdot, hdots⟩ := ne_dots_of_nameFault? hfault
      exact FileTree.place_name here hdot hdots
  by_cases hroot : root = ""
  · obtain ⟨hrelative, -, hsteps⟩ := hfit.fileSteps_path
    subst hroot
    have hjoin : Path.join "" file.path = file.path := by
      simp [Path.join]
    have hnothing : Path.steps "" = [] := rfl
    rw [place, FileTree.placeOf, hjoin, hrelative, hsteps, hnothing, FileTree.place_append,
      hfolders, FileTree.place_name _ (fileName_ne (by decide)) (fileName_ne (by decide)),
      List.append_assoc]
    rfl
  · rw [hfit.place_eq hroot, FileTree.place_append, hfolders, List.append_assoc]

theorem folders_injective {first second : TableFile}
    (hfolders : first.folders = second.folders) : first.schema = second.schema := by
  rw [folders, folders] at hfolders
  simp only [String.isEmpty_iff] at hfolders
  split at hfolders <;> split at hfolders <;> simp_all

/-- Two files that are in one place are the same. -/
theorem Fit.place_injective {first second : TableFile} (hfirst : first.Fit)
    (hsecond : second.Fit) {root : String} {workingDirectory : Location}
    (hplace : first.place root workingDirectory = second.place root workingDirectory) :
    first = second := by
  rw [hfirst.place_split, hsecond.place_split] at hplace
  obtain ⟨hfolders, hnames⟩ := List.append_inj' (List.append_cancel_left hplace) rfl
  have hschema := folders_injective hfolders
  have htable := fileName_injective (List.singleton_inj.mp hnames)
  cases first
  cases second
  rw [mk.injEq]
  exact ⟨hschema, htable⟩

end TableFile

namespace Connection

def linesAt (root : String) (workingDirectory location : Location)
    (lines : List (TableFile × String)) : List String :=
  (lines.filter fun entry => entry.1.place root workingDirectory == location).map Prod.snd

theorem linesAt_append (root : String) (workingDirectory location : Location)
    (first second : List (TableFile × String)) :
    linesAt root workingDirectory location (first ++ second) =
      linesAt root workingDirectory location first ++
        linesAt root workingDirectory location second := by
  rw [linesAt, List.filter_append, List.map_append]
  rfl

theorem mem_byFile {pending : List (TableFile × String)} {file : TableFile}
    {lines : List String} :
    (file, lines) ∈ byFile pending ↔ file ∈ pending.map Prod.fst ∧
      lines = (pending.filter fun entry => entry.1 == file).map Prod.snd := by
  rw [byFile, (List.mergeSort_perm _ _).mem_iff, Grouping.mem_group]

variable {root : String} {workingDirectory location : Location}
  {pending : List (TableFile × String)}

/-- The files of a commit are in different places. -/
theorem nodup_places_byFile (hfits : ∀ entry ∈ pending, entry.1.Fit) :
    ((byFile pending).map fun entry => entry.1.place root workingDirectory).Nodup := by
  have hfiles : ((byFile pending).map Prod.fst).Nodup :=
    ((List.mergeSort_perm _ _).map Prod.fst).nodup_iff.mpr (Grouping.nodup_group _)
  have hfit {file : TableFile} (hfile : file ∈ (byFile pending).map Prod.fst) : file.Fit := by
    obtain ⟨⟨_, lines⟩, hentry, rfl⟩ := List.mem_map.mp hfile
    obtain ⟨entry, hissued, hsame⟩ := List.mem_map.mp (mem_byFile.mp hentry).1
    exact hsame ▸ hfits entry hissued
  have hplaces := hfiles.map_on (f := fun file => file.place root workingDirectory)
    fun _ hfirst _ hsecond => (hfit hfirst).place_injective (hfit hsecond)
  rwa [List.map_map] at hplaces

/-- The lines for the place of a file are those of the file. -/
theorem linesAt_place (hfits : ∀ entry ∈ pending, entry.1.Fit) {file : TableFile}
    (hfile : file.Fit) :
    linesAt root workingDirectory (file.place root workingDirectory) pending =
      (pending.filter fun entry => entry.1 == file).map Prod.snd := by
  apply congrArg (List.map Prod.snd)
  apply List.filter_congr
  intro entry hentry
  rw [Bool.eq_iff_iff, beq_iff_eq, beq_iff_eq]
  constructor
  · exact fun hplace => (hfits entry hentry).place_injective hfile hplace
  · exact fun hsame => congrArg (TableFile.place root workingDirectory) hsame

theorem commit_run (connection : Connection) (machine : Machine) :
    (connection.commit : StateM Machine _) machine =
      let ended := (commitFiles connection.root (byFile connection.pending.toList) :
        StateM Machine _) machine
      ((ended.1, connection.rollback), ended.2) := rfl

/-- A commit that succeeds gives every file its lines, and no other file changes. -/
theorem commit_text {connection drained : Connection} {machine after : Machine}
    (hfits : ∀ entry ∈ connection.pending.toList, entry.1.Fit)
    (hcommit : (connection.commit : StateM Machine _) machine = ((.ok (), drained), after)) :
    after.workingDirectory = machine.workingDirectory ∧
      ∀ location, after.tree.text? location = extended (machine.tree.text? location)
        (linesAt connection.root machine.workingDirectory location
          connection.pending.toList) := by
  have hcases := commitFiles_cases connection.root (byFile connection.pending.toList) machine
    (nodup_places_byFile hfits)
  rw [commit_run] at hcommit
  generalize (commitFiles connection.root (byFile connection.pending.toList) :
    StateM Machine _) machine = ended at hcases hcommit
  obtain ⟨result, later⟩ := ended
  obtain ⟨hanswer, hafter⟩ := Prod.mk.inj hcommit
  obtain rfl : result = .ok () := (Prod.mk.inj hanswer).1
  obtain rfl : later = after := hafter
  obtain ⟨written, rest, hsplit, hextended, hend, -⟩ := hcases
  obtain rfl := hend.mp rfl
  rw [List.append_nil] at hsplit
  subst hsplit
  refine ⟨hextended.workingDirectory, ?_⟩
  intro location
  -- The files have places of their own, so a location is that of one file or of none.
  by_cases hlocation : ∃ entry ∈ connection.pending.toList,
      entry.1.place connection.root machine.workingDirectory = location
  · obtain ⟨entry, hentry, rfl⟩ := hlocation
    have hfile : entry.1 ∈ connection.pending.toList.map Prod.fst := List.mem_map_of_mem hentry
    have hgroup := mem_byFile.mpr ⟨hfile, rfl⟩
    have hlines := Grouping.group_ne_nil (Grouping.mem_group.mpr ⟨hfile, rfl⟩)
    have htext := hextended.lines _ hgroup
    rw [linesAt_place hfits (hfits _ hentry), extended_of_ne hlines]
    exact htext
  · have hnothing : linesAt connection.root machine.workingDirectory location
        connection.pending.toList = [] := by
      rw [linesAt, List.map_eq_nil_iff, List.filter_eq_nil_iff]
      intro entry hentry hplace
      exact hlocation ⟨entry, hentry, eq_of_beq hplace⟩
    rw [hnothing, extended_nil]
    apply hextended.elsewhere
    rintro ⟨file, lines⟩ hentry rfl
    obtain ⟨issued, hissued, rfl⟩ := List.mem_map.mp (mem_byFile.mp hentry).1
    exact hlocation ⟨issued, hissued, rfl⟩

theorem pending_rollbackTo (connection : Connection) (savepoint : Nat) :
    (connection.rollbackTo savepoint).2.pending.toList =
      connection.pending.toList.take savepoint := by
  rw [rollbackTo]
  split
  · simp
  · rename_i hbeyond
    rw [List.take_of_length_le]
    rw [size] at hbeyond
    simp only [Array.length_toList]
    omega

end Connection

inductive LogCall where
  | append (file : TableFile) (line : String)
  | savepoint
  | rollbackTo (savepoint : Nat)
  | rollback
  | commit
  deriving DecidableEq

namespace LogCall

def issued? : LogCall → Option (TableFile × String)
  | append file line => some (file, line)
  | _ => none

/-- A call that takes away no line issued before a savepoint, and commits none. -/
def StaysAbove (mark : Nat) : LogCall → Prop
  | .append _ _ => True
  | .savepoint => True
  | .rollbackTo number => mark ≤ number
  | .rollback => False
  | .commit => False

end LogCall

def issued (calls : List LogCall) : List (TableFile × String) := calls.filterMap LogCall.issued?

/-- A connection, with the machine that its files are on. -/
structure Logbook where
  connection : Connection
  machine : Machine

namespace Logbook

def opened (root : String) (machine : Machine) : Logbook := ⟨{ root }, machine⟩

/-- What a call answers, and what it leaves.  A savepoint answers its number. -/
def perform (book : Logbook) : LogCall → Except StoreError (Option Nat) × Logbook
  | .append file line => (.ok none, { book with connection := book.connection.append file line })
  | .savepoint => (.ok (some book.connection.savepoint), book)
  | .rollbackTo savepoint =>
    let (result, connection) := book.connection.rollbackTo savepoint
    (result.map fun _ => none, { book with connection })
  | .rollback => (.ok none, { book with connection := book.connection.rollback })
  | .commit =>
    let ((result, connection), machine) := (book.connection.commit : StateM Machine _) book.machine
    (result.map fun _ => none, { connection, machine })

def answer (book : Logbook) (call : LogCall) : Except StoreError (Option Nat) :=
  (book.perform call).1

def after (book : Logbook) (call : LogCall) : Logbook := (book.perform call).2

def afterAll (book : Logbook) (calls : List LogCall) : Logbook := calls.foldl after book

/-- The commits among calls succeed. -/
def Commits (book : Logbook) (calls : List LogCall) : Prop :=
  ∀ before rest, calls = before ++ .commit :: rest →
    (book.afterAll before).answer .commit = .ok none

variable {book start : Logbook} {call : LogCall} {calls rest : List LogCall}

theorem Commits.tail (hcommits : book.Commits (call :: rest)) :
    (book.after call).Commits rest := by
  intro before later hsplit
  exact hcommits (call :: before) later (congrArg (call :: ·) hsplit)

theorem machine_after (hcall : call ≠ .commit) : (book.after call).machine = book.machine := by
  cases call with
  | append file line => rfl
  | savepoint => rfl
  | rollbackTo savepoint => rfl
  | rollback => rfl
  | commit => exact absurd rfl hcall

end Logbook

/-- The lines that were committed, and those that wait. -/
structure LineLog where
  committed : List (TableFile × String) := []
  pending : List (TableFile × String) := []

namespace LineLog

def after (log : LineLog) : LogCall → LineLog
  | .append file line => { log with pending := log.pending ++ [(file, line)] }
  | .savepoint => log
  | .rollbackTo savepoint => { log with pending := log.pending.take savepoint }
  | .rollback => { log with pending := [] }
  | .commit => { committed := log.committed ++ log.pending, pending := [] }

def afterAll (log : LineLog) (calls : List LogCall) : LineLog := calls.foldl after log

def lines (log : LineLog) : List (TableFile × String) := log.committed ++ log.pending

/-- A call adds the line that it issues behind the others, or takes lines away. -/
theorem lines_after (log : LineLog) (call : LogCall) :
    (log.after call).lines.Sublist (log.lines ++ call.issued?.toList) := by
  cases call with
  | append file line =>
      rw [after, lines, lines, List.append_assoc]
      exact List.Sublist.refl _
  | savepoint => exact List.sublist_append_left _ _
  | rollbackTo savepoint =>
      apply List.sublist_append_of_sublist_left
      exact (List.take_sublist savepoint log.pending).append_left log.committed
  | rollback =>
      apply List.sublist_append_of_sublist_left
      exact (List.nil_sublist log.pending).append_left log.committed
  | commit =>
      apply List.sublist_append_of_sublist_left
      rw [after, lines, lines, List.append_nil]

/-- No line comes up twice, and none before another that was issued earlier. -/
theorem lines_afterAll (log : LineLog) (calls : List LogCall) :
    (log.afterAll calls).lines.Sublist (log.lines ++ issued calls) := by
  induction calls generalizing log with
  | nil => exact List.sublist_append_left _ _
  | cons call rest ih =>
      have hissued : issued (call :: rest) = call.issued?.toList ++ issued rest := by
        rw [issued, List.filterMap_cons]
        cases call.issued? <;> rfl
      rw [hissued, ← List.append_assoc]
      exact (ih (log.after call)).trans ((log.lines_after call).append_right _)

end LineLog

namespace Logbook

variable {book start : Logbook} {log : LineLog} {call : LogCall} {calls : List LogCall}

/-- A log says which lines wait in a connection and what its files hold, apart from what
they held at the start. -/
structure Follows (start : Logbook) (log : LineLog) (book : Logbook) : Prop where
  root : book.connection.root = start.connection.root
  workingDirectory : book.machine.workingDirectory = start.machine.workingDirectory
  pending : book.connection.pending.toList = log.pending
  fit : ∀ entry ∈ log.pending, entry.1.Fit
  contents : ∀ location, book.machine.tree.text? location =
    Connection.extended (start.machine.tree.text? location)
      (Connection.linesAt start.connection.root start.machine.workingDirectory location
        log.committed)

theorem answer_commit (hanswer : book.answer .commit = .ok none) :
    (book.connection.commit : StateM Machine _) book.machine =
      ((.ok (), (book.after .commit).connection), (book.after .commit).machine) := by
  rw [answer, perform] at hanswer
  rw [after, perform]
  generalize (book.connection.commit : StateM Machine _) book.machine = ended at hanswer
  obtain ⟨⟨e | done, connection⟩, machine⟩ := ended
  · simp [Except.map] at hanswer
  · rfl

/-- Every call does to the lines what it says. -/
theorem Follows.step (hfollows : Follows start log book)
    (hfit : ∀ file line, call = .append file line → file.Fit)
    (hanswer : call = .commit → book.answer .commit = .ok none) :
    Follows start (log.after call) (book.after call) := by
  have hpending := hfollows.pending
  cases call with
  | append file line =>
      refine ⟨hfollows.root, hfollows.workingDirectory, ?_, ?_, hfollows.contents⟩
      · exact (Connection.pending_append book.connection file line).trans
          (congrArg (· ++ [(file, line)]) hpending)
      · intro entry hentry
        rcases List.mem_append.mp hentry with hbefore | hnew
        · exact hfollows.fit entry hbefore
        · rw [List.mem_singleton.mp hnew]
          exact hfit file line rfl
  | savepoint => exact hfollows
  | rollbackTo savepoint =>
      refine ⟨?_, hfollows.workingDirectory, ?_, ?_, hfollows.contents⟩
      · rw [← hfollows.root]
        change (book.connection.rollbackTo savepoint).2.root = _
        rw [Connection.rollbackTo]
        split <;> rfl
      · exact (book.connection.pending_rollbackTo savepoint).trans
          (congrArg (List.take savepoint) hpending)
      · exact fun entry hentry => hfollows.fit entry (List.mem_of_mem_take hentry)
  | rollback =>
      exact ⟨hfollows.root, hfollows.workingDirectory, rfl,
        fun _ hentry => absurd hentry List.not_mem_nil, hfollows.contents⟩
  | commit =>
      have hfits : ∀ entry ∈ book.connection.pending.toList, entry.1.Fit := by
        rw [hpending]
        exact hfollows.fit
      obtain ⟨hdirectory, htext⟩ := Connection.commit_text hfits (answer_commit (hanswer rfl))
      refine ⟨hfollows.root, hdirectory.trans hfollows.workingDirectory, rfl,
        fun _ hentry => absurd hentry List.not_mem_nil, ?_⟩
      intro location
      rw [LineLog.after, Connection.linesAt_append, Connection.extended_append,
        ← hfollows.contents, ← hpending, ← hfollows.root, ← hfollows.workingDirectory]
      exact htext location

theorem Follows.run (hfollows : Follows start log book)
    (hfits : ∀ file line, .append file line ∈ calls → file.Fit) (hcommits : book.Commits calls) :
    Follows start (log.afterAll calls) (book.afterAll calls) := by
  induction calls generalizing log book with
  | nil => exact hfollows
  | cons call rest ih =>
      apply ih _ _ hcommits.tail
      · apply hfollows.step
        · rintro file line rfl
          exact hfits file line List.mem_cons_self
        · rintro rfl
          exact hcommits [] rest rfl
      · exact fun file line hmem => hfits file line (List.mem_cons_of_mem _ hmem)

/-- Lines have been added to a connection, and nothing else has changed. -/
structure Above (base book : Logbook) : Prop where
  root : book.connection.root = base.connection.root
  machine : book.machine = base.machine
  pending : ∃ more, book.connection.pending.toList = base.connection.pending.toList ++ more

variable {base : Logbook}

theorem Above.step (habove : Above base book)
    (hcall : call.StaysAbove base.connection.savepoint) : Above base (book.after call) := by
  obtain ⟨more, hmore⟩ := habove.pending
  cases call with
  | append file line =>
      refine ⟨habove.root, habove.machine, more ++ [(file, line)], ?_⟩
      rw [← List.append_assoc, ← hmore]
      exact Connection.pending_append book.connection file line
  | savepoint => exact habove
  | rollbackTo savepoint =>
      refine ⟨?_, habove.machine, more.take (savepoint - base.connection.savepoint), ?_⟩
      · rw [← habove.root]
        change (book.connection.rollbackTo savepoint).2.root = _
        rw [Connection.rollbackTo]
        split <;> rfl
      · -- The savepoint is not below the base: what goes away was added above it.
        refine (book.connection.pending_rollbackTo savepoint).trans ?_
        have hlength : base.connection.pending.toList.length = base.connection.savepoint := rfl
        rw [hmore, List.take_append, List.take_of_length_le (hlength ▸ hcall), hlength]
  | rollback => exact False.elim hcall
  | commit => exact False.elim hcall

theorem Above.run (habove : Above base book)
    (hcalls : ∀ call ∈ calls, call.StaysAbove base.connection.savepoint) :
    Above base (book.afterAll calls) := by
  induction calls generalizing book with
  | nil => exact habove
  | cons call rest ih =>
      exact ih (habove.step (hcalls call List.mem_cons_self))
        fun later hlater => hcalls later (List.mem_cons_of_mem _ hlater)

/-- Going back takes away what was added. -/
theorem Above.back (habove : Above base book) :
    book.perform (.rollbackTo base.connection.savepoint) = (.ok none, base) := by
  obtain ⟨more, hmore⟩ := habove.pending
  obtain ⟨⟨root, pending⟩, machine⟩ := book
  obtain ⟨⟨first, before⟩, files⟩ := base
  obtain rfl : root = first := habove.root
  obtain rfl : machine = files := habove.machine
  have hsize : before.size ≤ pending.size := by
    rw [← Array.length_toList, ← Array.length_toList, hmore, List.length_append]
    exact Nat.le_add_right _ _
  have hpending : pending.take before.size = before := by
    apply Array.toList_inj.mp
    have hlists : pending.toList = before.toList ++ more := hmore
    simp [hlists, ← Array.length_toList]
  simp only [perform, Connection.rollbackTo, Connection.savepoint, Connection.size, if_pos hsize,
    hpending]
  rfl

/-- What holds of a connection and its files after calls on it. -/
structure Transactional (start : Logbook) (calls : List LogCall) : Prop where
  /-- Going back to a savepoint brings back the lines that waited then, whatever was added
  and taken away above it. -/
  restores : ∀ number between, (start.afterAll calls).answer .savepoint = .ok (some number) →
    (∀ call ∈ between, call.StaysAbove number) →
    (((start.afterAll calls).after .savepoint).afterAll between).perform (.rollbackTo number) =
      (.ok none, start.afterAll calls)
  /-- There is no going back to a savepoint beyond the lines that wait. -/
  refuses : ∀ number, (start.afterAll calls).connection.size < number →
    (start.afterAll calls).perform (.rollbackTo number) =
      (.error (.rollback s!"Unknown savepoint {number}"), start.afterAll calls)
  /-- Nothing but a commit changes a file. -/
  untouched : ∀ call, call ≠ .commit →
    ((start.afterAll calls).after call).machine = (start.afterAll calls).machine
  empties : ∀ call, call = .rollback ∨ call = .commit →
    ((start.afterAll calls).after call).connection.pending = #[]
  /-- A commit gives every file the lines that wait for it, and no other file changes. -/
  commits : (start.afterAll calls).answer .commit = .ok none → ∀ location,
    ((start.afterAll calls).after .commit).machine.tree.text? location =
      Connection.extended ((start.afterAll calls).machine.tree.text? location)
        (Connection.linesAt start.connection.root start.machine.workingDirectory location
          (start.afterAll calls).connection.pending.toList)
  pending : (start.afterAll calls).connection.pending.toList = (LineLog.afterAll {} calls).pending
  /-- Every file has its first text and behind it the lines that were committed for it. -/
  contents : ∀ location, (start.afterAll calls).machine.tree.text? location =
    Connection.extended (start.machine.tree.text? location)
      (Connection.linesAt start.connection.root start.machine.workingDirectory location
        (LineLog.afterAll {} calls).committed)
  /-- The lines are those that were issued, in their order, each at most once. -/
  once : (LineLog.afterAll {} calls).lines.Sublist (issued calls)

theorem refuses {number : Nat} (hbeyond : book.connection.size < number) :
    book.perform (.rollbackTo number) =
      (.error (.rollback s!"Unknown savepoint {number}"), book) := by
  rw [perform, Connection.rollbackTo, if_neg (Nat.not_le.mpr hbeyond)]
  rfl

/-- Lines for one file, which is made by the commit. -/
theorem perform_commit_of_nothing {file : TableFile} {lines : List String} {tree : FileTree}
    {location : Location}
    (hfiles : Connection.byFile book.connection.pending.toList = [(file, lines)])
    (hmade : book.machine.tree.createDirAll book.machine.workingDirectory
      ((Path.parent? (Path.join book.connection.root file.path)).getD "") = (.ok (), tree))
    (hlocate : tree.locateFile book.machine.workingDirectory
      (Path.join book.connection.root file.path) = .ok location)
    (hnothing : tree.get? location = none) :
    book.perform .commit = (.ok none, ⟨book.connection.rollback, { book.machine with
      tree := tree.set location (.file (Connection.linesText lines)) }⟩) := by
  have hfile : (Connection.commitFile book.connection.root file lines : StateM Machine _)
      book.machine = _ := Connection.commitFile_of_nothing hmade hlocate hnothing
  rw [perform, Connection.commit_run, hfiles, Connection.commitFiles, Connection.bind_run, hfile]
  rfl

theorem Commits.next {first : List LogCall} (hfirst : .commit ∉ first)
    (hanswer : (book.afterAll first).answer .commit = .ok none)
    (hrest : ((book.afterAll first).after .commit).Commits rest) :
    book.Commits (first ++ .commit :: rest) := by
  induction first generalizing book with
  | nil =>
      intro before later hsplit
      cases before with
      | nil => exact hanswer
      | cons call before =>
          obtain ⟨rfl, hlater⟩ := List.cons.inj hsplit
          exact hrest before later hlater
  | cons call first ih =>
      intro before later hsplit
      cases before with
      | nil => exact absurd (List.cons.inj hsplit).1 (List.ne_of_not_mem_cons hfirst).symm
      | cons other before =>
          obtain ⟨rfl, hlater⟩ := List.cons.inj hsplit
          exact ih (List.not_mem_of_not_mem_cons hfirst) hanswer hrest before later hlater

/-- Lines for two files, some of them taken back to one savepoint or another. -/
def firstCalls : List LogCall :=
  [.append ⟨"", "a"⟩ "1", .savepoint, .append ⟨"", "b"⟩ "2", .savepoint, .append ⟨"", "a"⟩ "3",
    .rollbackTo 2, .append ⟨"", "b"⟩ "4", .rollbackTo 1, .append ⟨"", "a"⟩ "5"]

/-- Lines that are dropped, and others. -/
def laterCalls : List LogCall := [.append ⟨"", "a"⟩ "6", .rollback, .append ⟨"", "b"⟩ "7"]

def firstTree : FileTree := FileTree.set {} ["a.jsonl"] (.file (Connection.linesText ["1", "5"]))

theorem perform_firstCalls : ((opened "/" {}).afterAll firstCalls).perform .commit =
    (.ok none, opened "/" { tree := firstTree }) := by
  have hfiles : Connection.byFile [(⟨"", "a"⟩, "1"), (⟨"", "a"⟩, "5")] =
      [(⟨"", "a"⟩, ["1", "5"])] := by
    rw [Connection.byFile, Grouping.group_eq]
    exact List.mergeSort_of_pairwise (List.pairwise_singleton _ _)
  exact perform_commit_of_nothing hfiles rfl rfl (FileTree.get?_empty (by decide))

theorem answer_laterCalls :
    ((opened "/" { tree := firstTree }).afterAll laterCalls).answer .commit = .ok none := by
  have hfiles : Connection.byFile [(⟨"", "b"⟩, "7")] = [(⟨"", "b"⟩, ["7"])] := by
    rw [Connection.byFile, Grouping.group_eq]
    exact List.mergeSort_of_pairwise (List.pairwise_singleton _ _)
  have hnothing : firstTree.get? ["b.jsonl"] = none := by
    rw [firstTree, FileTree.get?_set_of_ne _ (by decide)]
    exact FileTree.get?_empty (by decide)
  have hperform : ((opened "/" { tree := firstTree }).afterAll laterCalls).perform .commit = _ :=
    perform_commit_of_nothing hfiles rfl rfl hnothing
  exact congrArg Prod.fst hperform

def allCalls : List LogCall := firstCalls ++ .commit :: (laterCalls ++ .commit :: [])

theorem commits_allCalls : (opened "/" {}).Commits allCalls := by
  apply Commits.next
  · decide
  · exact congrArg Prod.fst perform_firstCalls
  · rw [after, perform_firstCalls]
    apply Commits.next
    · decide
    · exact answer_laterCalls
    · intro before later hsplit
      simp at hsplit

end Logbook

end TableRouting.JsonLines
