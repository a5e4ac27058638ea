import Mathlib
import TableRouting.Proofs.Batch.Course
import TableRouting.Proofs.Batch.Following

/-!
# Groups are isolated

A batch that is committed keeps the rows of just those groups whose writers have
reported.  A group that failed on the way, whatever rows it had added by then, leaves
none behind: all its records are routed, and the groups after it are written as if it
had not been there.
-/

namespace TableRouting

variable {m : Type → Type} [Monad m] {σ κ ω ρ : Type}

/-- The trail of a world that keeps a history of its entries. -/
def Trail.ofHistory (runner : Runner m σ) (history : σ → List (TrailEntry ρ)) : Trail m σ ρ where
  toRunner := runner
  Leads world entries after := history after = history world ++ entries
  refl _ := (List.append_nil _).symm
  trans hfirst hrest := by rw [hrest, hfirst, List.append_assoc]

namespace TrailEntry

def reportedRows : TrailEntry ρ → List ρ
  | .wrote _ (.ok _) rows => rows
  | _ => []

def committedRows : TrailEntry ρ → List ρ
  | .committed rows (.ok _) => rows
  | _ => []

theorem flatMap_routedAll {α : Type} {f : TrailEntry ρ → List α}
    (hnone : ∀ record cause answer, f (.routed record cause answer) = [])
    (failures : List (Record × FailureCause)) : (routedAll failures).flatMap f = [] := by
  rw [List.flatMap_eq_nil_iff]
  intro entry hentry
  obtain ⟨failure, -, rfl⟩ := List.mem_map.mp hentry
  exact hnone _ _ _

end TrailEntry

namespace Fate

theorem flatMap_reportedRows (fate : Fate ρ) :
    fate.entries.flatMap TrailEntry.reportedRows = fate.kept := by
  rw [entries, List.flatMap_append, TrailEntry.flatMap_routedAll fun _ _ _ => rfl,
    List.append_nil]
  obtain ⟨group, ending⟩ := fate
  cases ending with
  | finished report rows => exact List.append_nil rows
  | crashed e rows => rfl
  | refused e => rfl
  | unbuilt reason => rfl

theorem flatMap_committedRows (fate : Fate ρ) :
    fate.entries.flatMap TrailEntry.committedRows = [] := by
  rw [entries, List.flatMap_append, TrailEntry.flatMap_routedAll fun _ _ _ => rfl,
    List.append_nil]
  obtain ⟨group, ending⟩ := fate
  cases ending <;> rfl

end Fate

/-- What the entries of a batch say that was committed, when it was written in a cache and a
world: what became of every group, with the order in which all this happened. -/
structure Isolates (coordinator : Coordinator m κ ω) (runner : Runner m σ) (batch : List Record)
    (cache : WriterCache ω) (world : σ) (outcome : WriteOutcome) (fates : List (Fate ρ))
    (entries : List (TrailEntry ρ)) : Prop where
  /-- Every group is processed, in the order in which the tables first appear. -/
  groups_eq : fates.map Fate.group = coordinator.groups batch
  /-- Every group meets its fate when those before it are through: its writer was looked up and
  has answered, or was released before it could, or was not to be had for this reason. -/
  meets : coordinator.MeetsFrom runner (coordinator.firstTurn runner batch cache world) fates
  outcome_eq : outcome =
    .ofTables (coordinator.unresolved batch).length (fates.map Fate.outcome)
  entries_eq : entries = TrailEntry.routedAll (coordinator.unroutable batch) ++
    fates.flatMap Fate.entries ++ commitEntries fates (fates.flatMap Fate.kept)
  /-- The rows of the writes that ended with a report are committed, and no others. -/
  committed : entries.flatMap TrailEntry.committedRows =
    entries.flatMap TrailEntry.reportedRows
  /-- A group whose writer failed, refused or was not to be had is given up. -/
  givenUp : ∀ fate ∈ fates, ∀ cause, fate.cause? = some cause → fate.GivenUp cause

section

variable {coordinator : Coordinator m κ ω} {batch : List Record} {fates : List (Fate ρ)}

theorem flatMap_commitEntries {α : Type} {f : TrailEntry ρ → List α} (fates : List (Fate ρ))
    {kept : List ρ} (hnone : fates = [] → f (.committed kept (.ok ())) = []) :
    (commitEntries fates kept).flatMap f = f (.committed kept (.ok ())) := by
  rw [commitEntries]
  split
  · rename_i hempty
    exact (hnone (List.isEmpty_iff.mp hempty)).symm
  · exact List.flatMap_singleton f _

/-- The commit takes the rows of the reports. -/
theorem committedRows_eq_reportedRows (failures : List (Record × FailureCause))
    (fates : List (Fate ρ)) :
    (TrailEntry.routedAll failures ++ fates.flatMap Fate.entries ++
        commitEntries fates (fates.flatMap Fate.kept)).flatMap TrailEntry.committedRows =
      (TrailEntry.routedAll failures ++ fates.flatMap Fate.entries ++
        commitEntries fates (fates.flatMap Fate.kept)).flatMap TrailEntry.reportedRows := by
  have hcommit : (commitEntries fates (fates.flatMap Fate.kept)).flatMap
      TrailEntry.committedRows = fates.flatMap Fate.kept :=
    flatMap_commitEntries fates fun hnone => by rw [hnone]; rfl
  have hsilent : (commitEntries fates (fates.flatMap Fate.kept)).flatMap
      TrailEntry.reportedRows = [] :=
    flatMap_commitEntries fates fun _ => rfl
  have hgroups : (fates.flatMap Fate.entries).flatMap TrailEntry.committedRows = [] := by
    rw [List.flatMap_assoc, List.flatMap_eq_nil_iff]
    exact fun fate _ => fate.flatMap_committedRows
  have hkept : (fates.flatMap Fate.entries).flatMap TrailEntry.reportedRows =
      fates.flatMap Fate.kept := by
    rw [List.flatMap_assoc]
    exact List.flatMap_congr fun fate _ => fate.flatMap_reportedRows
  rw [List.flatMap_append, List.flatMap_append, List.flatMap_append, List.flatMap_append,
    TrailEntry.flatMap_routedAll fun _ _ _ => rfl, TrailEntry.flatMap_routedAll fun _ _ _ => rfl,
    hgroups, hcommit, hkept, hsilent]
  simp only [List.append_nil, List.nil_append]

theorem isolates {runner : Runner m σ} {rows : κ → List ρ}
    (hmarks : coordinator.store.Marks runner rows) {cache : WriterCache ω} {world : σ}
    {outcome : WriteOutcome} {entries : List (TrailEntry ρ)}
    (htrail : BatchTrail coordinator runner rows batch cache world (.ok outcome) entries) :
    ∃ fates, Isolates coordinator runner batch cache world outcome fates entries := by
  cases htrail with
  | grouped hgroups =>
      cases hgroups with
      | committed fates kept hgroups hmeets hclean hkept =>
          obtain rfl := hkept hmarks
          refine ⟨fates, hgroups, hmeets, rfl, (List.append_assoc _ _ _).symm, ?_,
            fun _ _ _ hcause => Fate.givenUp_of_cause hcause⟩
          rw [← List.append_assoc]
          exact committedRows_eq_reportedRows _ fates

end

variable [LawfulMonad m]

namespace JsonLines

variable {S : Type} [Host (StateM S)]

/-- A savepoint of the JSON-lines store is the number of lines that wait. -/
theorem marks_store (root : String) (spec : WriterSpec) :
    (store root spec : Store (SessionT (StateM S)) Connection TableWriter).Marks (.session S)
      fun connection => connection.pending.toList where
  connect world connection hconnection := by
    have hrun : ((connect root : SessionT (StateM S) (Except StoreError Connection))
        world.1 world.2).1.1 = .ok connection := hconnection
    rw [connect_run] at hrun
    simp only at hrun
    split at hrun
    · exact nomatch hrun
    · rw [← Except.ok.inj hrun]
  savepoint connection _ mark hmark := by
    obtain rfl : connection.savepoint = mark := Except.ok.inj hmark
    exact ⟨Array.length_toList.symm, rfl⟩
  rollbackTo mark connection _ hmark _ := by
    have hrun : connection.rollbackTo mark =
        (.ok (), { connection with pending := connection.pending.take mark }) := by
      rw [Connection.rollbackTo, if_pos]
      rwa [Connection.size, ← Array.length_toList]
    calc
      (connection.rollbackTo mark).2.pending.toList
        = (connection.pending.take mark).toList := by rw [hrun]
      _ = connection.pending.toList.take mark := by simp

end JsonLines

/-- A store that keeps a history.  Its writers add a row for every record, and that of the
table `b` fails when it has done so; the table `d` has no writer. -/
def historian : Store (StateM (List (TrailEntry String))) (List String) String where
  now := pure 0
  create table := pure (if table = "d" then .refused ⟨table, "no such table"⟩ else .built table)
  close writer := pure (.ok (), writer)
  connect := pure (.ok [])
  savepoint connection := pure (.ok connection.length, connection)
  rollbackTo mark connection := pure (.ok (), connection.take mark)
  commit connection := fun history => ((.ok (), []), history ++ [.committed connection (.ok ())])
  rollback _ := pure (.ok (), [])
  write writer records connection := fun history =>
    let more := records.map Record.id
    let answer : Except StoreError WriteReport :=
      if writer = "b" then .error (.statement "disk full") else .ok { written := records.length }
    ((answer, writer, connection ++ more), history ++ [.wrote records answer more])
  closeSource := pure (.ok ())

def chronicled : Coordinator (StateM (List (TrailEntry String))) (List String) String where
  resolve record := match record.header? "table" with
    | some table => .ok table
    | none => .error (.missingHeader "table")
  store := historian
  route record cause := fun history => (.ok (), history ++ [.routed record cause (.ok ())])
  rollbackOnError := false

theorem tracked_chronicled :
    chronicled.Tracked id (.ofHistory (.state (List (TrailEntry String))) id) where
  workshop := {
    now := fun _ _ => (List.append_nil _).symm
    create := fun _ _ _ => (List.append_nil _).symm
    close := fun _ _ _ => (List.append_nil _).symm }
  connect _ := (List.append_nil _).symm
  savepoint _ _ := (List.append_nil _).symm
  rollbackTo _ _ _ := (List.append_nil _).symm
  rollback _ _ := (List.append_nil _).symm
  route _ _ _ := rfl
  write _ _ _ _ := ⟨_, rfl, rfl⟩
  commit _ _ := rfl

theorem marks_historian :
    historian.Marks (.state (List (TrailEntry String))) (id : List String → List String) where
  connect _ _ hconnection := (Except.ok.inj hconnection).symm
  savepoint _ _ _ hmark := ⟨(Except.ok.inj hmark).symm, rfl⟩
  rollbackTo _ _ _ _ _ := rfl

/-- Records of the tables `a`, `b`, `c`, `d` and again `a`, and one without a table. -/
def scattered : List Record :=
  [⟨"1", .null, [("table", "a")]⟩, ⟨"2", .null, [("table", "b")]⟩, ⟨"3", .null, []⟩,
    ⟨"4", .null, [("table", "c")]⟩, ⟨"5", .null, [("table", "d")]⟩,
    ⟨"6", .null, [("table", "a")]⟩]

def scatteredOutcome : WriteOutcome where
  written := 3
  errored := 3
  tables := [⟨"a", 2, 0, 0⟩, ⟨"b", 0, 1, 0⟩, ⟨"c", 1, 0, 0⟩, ⟨"d", 0, 1, 0⟩]

theorem writeBatch_scattered (history : List (TrailEntry String)) :
    (chronicled.writeBatch { cleaner := .start 0 0 } scattered { limits := {} } history).1.1.1 =
      .ok scatteredOutcome := by
  cbv

end TableRouting
