import TableRouting.Proofs.Batch.Plan
import TableRouting.Proofs.Batch.Trail

/-!
# The fates of groups

What becomes of a group that does not fail its batch can be read off the trail: its
writer has reported, or has failed, or was not to be had.  A batch that is committed
leaves the fates of all its groups behind, and one that fails those of the groups
before the failure.
-/

namespace TableRouting

variable {m : Type → Type} [Monad m] {σ κ ω ρ : Type}

namespace TrailEntry

def routing? : TrailEntry ρ → Option (Record × FailureCause)
  | .routed record cause _ => some (record, cause)
  | _ => none

/-- Routing has failed the batch. -/
def isStop : TrailEntry ρ → Bool
  | .routed _ _ (.error _) => true
  | _ => false

def routedAll (failures : List (Record × FailureCause)) : List (TrailEntry ρ) :=
  failures.map fun failure => .routed failure.1 failure.2 (.ok ())

@[simp] theorem filterMap_routedAll (failures : List (Record × FailureCause)) :
    (routedAll failures : List (TrailEntry ρ)).filterMap routing? = failures := by
  induction failures with
  | nil => rfl
  | cons failure rest ih => exact congrArg (failure :: ·) ih

end TrailEntry

/-- A group is given up without a failure that is routed, unless it is routing that fails
the batch. -/
def Halts (entries : List (TrailEntry ρ)) : Prop :=
  (∃ entry ∈ entries, entry.isStop = true) ∨ entries.filterMap TrailEntry.routing? = []

theorem Halts.append {entries : List (TrailEntry ρ)} (hhalts : Halts entries)
    {others : List (TrailEntry ρ)} (hothers : others.filterMap TrailEntry.routing? = []) :
    Halts (others ++ entries) := by
  rcases hhalts with ⟨entry, hentry, hstop⟩ | hnone
  · exact .inl ⟨entry, List.mem_append_right others hentry, hstop⟩
  · exact .inr (by rw [List.filterMap_append, hothers, hnone, List.append_nil])

/-- How the writing of a group ends that does not fail its batch. -/
inductive Ending (ρ : Type) where
  /-- The writer has reported after it had added rows. -/
  | finished (report : WriteReport) (rows : List ρ)
  /-- The writer has failed after it had added rows. -/
  | crashed (error : StoreError) (rows : List ρ)
  /-- The writer was released, and refused. -/
  | refused (error : StoreError)
  /-- There was no writer. -/
  | unbuilt (reason : Unavailable)

/-- The attempt with which the writing of a group has ended. -/
def Ending.attempt : Ending ρ → Coordinator.Attempt
  | .finished report _ => .answered (.ok report)
  | .crashed e _ => .answered (.error e)
  | .refused e => .refused e
  | .unbuilt reason => .unavailable reason

/-- What becomes of a group. -/
structure Fate (ρ : Type) where
  group : Group
  ending : Ending ρ

namespace Fate

/-- The rows that stay on the connection. -/
def kept (fate : Fate ρ) : List ρ :=
  match fate.ending with
  | .finished _ rows => rows
  | .crashed _ _ | .refused _ | .unbuilt _ => []

/-- The failures that are routed: those of a report, or one for every record. -/
def failures (fate : Fate ρ) : List (Record × FailureCause) :=
  match fate.ending with
  | .finished report _ => JsonLines.reported fate.group.1 fate.group.2 report.failures
  | .crashed e _ | .refused e => fate.group.2.map fun record => (record, .store fate.group.1 e)
  | .unbuilt reason => fate.group.2.map fun record =>
      (record, .construction (Coordinator.constructionError fate.group.1 reason))

def outcome (fate : Fate ρ) : TableOutcome :=
  match fate.ending with
  | .finished report _ =>
    { table := fate.group.1
      written := report.written
      errored := (JsonLines.reported fate.group.1 fate.group.2 report.failures).length
      discarded := report.discarded }
  | .crashed _ _ | .refused _ | .unbuilt _ =>
    { table := fate.group.1, errored := fate.group.2.length }

def writes (fate : Fate ρ) : List (TrailEntry ρ) :=
  match fate.ending with
  | .finished report rows => [.wrote fate.group.2 (.ok report) rows]
  | .crashed e rows => [.wrote fate.group.2 (.error e) rows]
  | .refused _ | .unbuilt _ => []

def entries (fate : Fate ρ) : List (TrailEntry ρ) :=
  fate.writes ++ TrailEntry.routedAll fate.failures

def cause? (fate : Fate ρ) : Option FailureCause :=
  match fate.ending with
  | .finished _ _ => none
  | .crashed e _ | .refused e => some (.store fate.group.1 e)
  | .unbuilt reason =>
    some (.construction (Coordinator.constructionError fate.group.1 reason))

/-- What it means for a group to be given up: none of its rows stays, and every record
fails. -/
structure GivenUp (fate : Fate ρ) (cause : FailureCause) : Prop where
  kept : fate.kept = []
  failures : fate.failures = fate.group.2.map fun record => (record, cause)
  outcome : fate.outcome = { table := fate.group.1, errored := fate.group.2.length }

theorem givenUp_of_cause {fate : Fate ρ} {cause : FailureCause}
    (hcause : fate.cause? = some cause) : fate.GivenUp cause := by
  obtain ⟨group, ending⟩ := fate
  cases ending with
  | finished report rows => exact absurd hcause (by simp [cause?])
  | crashed e rows => exact Option.some.inj hcause ▸ ⟨rfl, rfl, rfl⟩
  | refused e => exact Option.some.inj hcause ▸ ⟨rfl, rfl, rfl⟩
  | unbuilt reason => exact Option.some.inj hcause ▸ ⟨rfl, rfl, rfl⟩

/-- A group meets its fate at its turn: after its savepoint it is written, and this ends as the
fate says. -/
def Met (coordinator : Coordinator m κ ω) (runner : Runner m σ) (turn : Turn σ κ ω)
    (fate : Fate ρ) : Prop :=
  coordinator.Concludes runner fate.group
    (runner.onTurn (Coordinator.onConnection coordinator.store.savepoint) turn).2
    fate.ending.attempt

theorem filterMap_writes (fate : Fate ρ) : fate.writes.filterMap TrailEntry.routing? = [] := by
  obtain ⟨group, ending⟩ := fate
  cases ending <;> rfl

theorem filterMap_entries (fate : Fate ρ) :
    fate.entries.filterMap TrailEntry.routing? = fate.failures := by
  rw [entries, List.filterMap_append, filterMap_writes, TrailEntry.filterMap_routedAll,
    List.nil_append]

end Fate

/-- The savepoints of a store mark positions in the list of rows on a connection. -/
structure Store.Marks (store : Store m κ ω) (runner : Runner m σ) (rows : κ → List ρ) :
    Prop where
  connect : ∀ world connection,
    (runner.run store.connect world).1 = .ok connection → rows connection = []
  savepoint : ∀ connection world mark,
    (runner.run (store.savepoint connection) world).1.1 = .ok mark →
      mark = (rows connection).length ∧
        rows (runner.run (store.savepoint connection) world).1.2 = rows connection
  rollbackTo : ∀ mark connection world, mark ≤ (rows connection).length →
    (runner.run (store.rollbackTo mark connection) world).1.1 = .ok () →
      rows (runner.run (store.rollbackTo mark connection) world).1.2 = (rows connection).take mark

/-- What failures that are to be routed leave. -/
def Routes {α : Type} (failures : List (Record × FailureCause)) (result : Except WriteError α)
    (entries : List (TrailEntry ρ)) : Prop :=
  match result with
  | .ok _ => entries = TrailEntry.routedAll failures
  | .error _ => ∃ entry ∈ entries, entry.isStop = true

theorem Routes.cons {α : Type} {failures : List (Record × FailureCause)}
    {result : Except WriteError α} {entries : List (TrailEntry ρ)}
    (hroutes : Routes failures result entries) (record : Record) (cause : FailureCause) :
    Routes ((record, cause) :: failures) result (.routed record cause (.ok ()) :: entries) := by
  cases result with
  | ok _ => exact congrArg _ hroutes
  | error e =>
      obtain ⟨entry, hentry, hstop⟩ := hroutes
      exact ⟨entry, List.mem_cons_of_mem _ hentry, hstop⟩

/-- How writing a group ends at its turn, with the connection and the entries after it. -/
inductive GroupEnds (coordinator : Coordinator m κ ω) (runner : Runner m σ) (rows : κ → List ρ)
    (group : Group) (turn : Turn σ κ ω) :
    Except WriteError TableOutcome → κ → List (TrailEntry ρ) → Prop
  | met (ending : Ending ρ) {changed : κ}
      (hmet : (Fate.mk group ending).Met coordinator runner turn)
      (hclean : coordinator.rollbackOnError = true → (Fate.mk group ending).failures = [])
      (hkept : coordinator.store.Marks runner rows →
        rows changed = rows turn.connection ++ (Fate.mk group ending).kept) :
      GroupEnds coordinator runner rows group turn (.ok (Fate.mk group ending).outcome) changed
        (Fate.mk group ending).entries
  | halted (e : WriteError) (changed : κ) {entries : List (TrailEntry ρ)}
      (hhalts : Halts entries) :
      GroupEnds coordinator runner rows group turn (.error e) changed entries

/-- The trail of an attempt to write a group. -/
inductive AttemptTrail (rows : κ → List ρ) (records : List Record) (connection : κ) :
    Coordinator.Attempt → κ → List (TrailEntry ρ) → Prop
  | unavailable (reason : Unavailable) :
      AttemptTrail rows records connection (.unavailable reason) connection []
  | refused (e : StoreError) : AttemptTrail rows records connection (.refused e) connection []
  | answered (answer : Except StoreError WriteReport) {changed : κ} {more : List ρ}
      (hrows : rows changed = rows connection ++ more) :
      AttemptTrail rows records connection (.answered answer) changed
        [.wrote records answer more]

section

variable {coordinator : Coordinator m κ ω} {rows : κ → List ρ} {trail : Trail m σ ρ}
  (htracked : coordinator.Tracked rows trail)
include htracked

theorem leaves_route (record : Record) (cause : FailureCause) :
    trail.Leaves (coordinator.route record cause) fun answer entries =>
      entries = [.routed record cause answer] :=
  fun world => ⟨_, htracked.route record cause world, rfl⟩

theorem leaves_routeAll (cause : FailureCause) (records : List Record) :
    trail.Leaves (coordinator.routeAll cause records)
      (Routes (records.map fun record => (record, cause))) := by
  induction records with
  | nil => exact Trail.leaves_pure rfl
  | cons record rest ih =>
      rw [Coordinator.routeAll]
      apply (leaves_route htracked record cause).bind
      rintro answer entries rfl
      cases answer with
      | error e => exact Trail.leaves_pure ⟨_, List.mem_cons_self, rfl⟩
      | ok _ => exact ih.imp fun result more hmore => hmore.cons record cause

theorem leaves_routeUnresolved (failures : List (Record × EvaluationError)) :
    trail.Leaves (coordinator.routeUnresolved failures)
      (Routes (failures.map fun failure => (failure.1, .evaluation failure.2))) := by
  induction failures with
  | nil => exact Trail.leaves_pure rfl
  | cons failure rest ih =>
      rw [Coordinator.routeUnresolved]
      apply (leaves_route htracked failure.1 (.evaluation failure.2)).bind
      rintro answer entries rfl
      cases answer with
      | error e => exact Trail.leaves_pure ⟨_, List.mem_cons_self, rfl⟩
      | ok _ => exact ih.imp fun result more hmore => hmore.cons _ _

/-- The failures of a report that name records of the group are routed and counted. -/
theorem leaves_routeFailures (table : String) (records : List Record) (errored : Nat)
    (failures : List RecordFailure) :
    trail.Leaves (coordinator.routeFailures table records errored failures) fun result entries =>
      Routes (JsonLines.reported table records failures) result entries ∧
        ∀ count, result = .ok count →
          count = errored + (JsonLines.reported table records failures).length := by
  induction failures generalizing errored with
  | nil => exact Trail.leaves_pure ⟨rfl, fun count hcount => (Except.ok.inj hcount).symm⟩
  | cons failure rest ih =>
      rw [Coordinator.routeFailures]
      cases hrecord : records[failure.index]? with
      | none =>
          have hskipped : JsonLines.reported table records (failure :: rest) =
              JsonLines.reported table records rest := by
            rw [JsonLines.reported, List.filterMap_cons, hrecord]
            rfl
          rw [hskipped]
          exact ih errored
      | some record =>
          have hnamed : JsonLines.reported table records (failure :: rest) =
              (record, .store table failure.error) :: JsonLines.reported table records rest := by
            rw [JsonLines.reported, List.filterMap_cons, hrecord]
            rfl
          rw [hnamed]
          apply (leaves_route htracked record (.store table failure.error)).bind
          rintro answer entries rfl
          cases answer with
          | error e => exact Trail.leaves_pure ⟨⟨_, List.mem_cons_self, rfl⟩, by simp⟩
          | ok _ =>
              apply (ih (errored + 1)).imp
              rintro result more ⟨hroutes, hcount⟩
              refine ⟨hroutes.cons _ _, fun count hresult => ?_⟩
              rw [hcount count hresult, List.length_cons]
              omega

/-- A report either fails the batch before a failure is routed, or all its failures are
routed. -/
theorem leaves_applyReport (group : Group) (report : WriteReport) (kept : List ρ) :
    trail.Leaves (coordinator.applyReport group.1 group.2 report) fun result entries =>
      match result with
      | .ok outcome =>
        outcome = (Fate.mk group (.finished report kept)).outcome ∧
          entries = TrailEntry.routedAll (Fate.mk group (.finished report kept)).failures ∧
          (coordinator.rollbackOnError = true →
            (Fate.mk group (.finished report kept)).failures = [])
      | .error _ => Halts entries := by
  rw [Coordinator.applyReport]
  cases hfailures : report.failures with
  | nil =>
      apply Trail.leaves_pure
      simp only [Fate.outcome, Fate.failures, hfailures]
      exact ⟨rfl, rfl, fun _ => rfl⟩
  | cons first rest =>
      simp only
      split
      · exact Trail.leaves_pure (.inr rfl)
      · rename_i hrollback
        apply (leaves_routeFailures htracked group.1 group.2 0 (first :: rest)).bind
        rintro result entries ⟨hroutes, hcount⟩
        cases result with
        | error e =>
            apply Trail.leaves_pure
            rw [List.append_nil]
            exact .inl hroutes
        | ok errored =>
            apply Trail.leaves_pure
            simp only [Fate.outcome, Fate.failures, hfailures, List.append_nil]
            refine ⟨?_, hroutes, fun h => absurd h hrollback⟩
            rw [hcount errored rfl, Nat.zero_add]

theorem leavesIn_useWriter (records : List Record) (connection : κ) (writer : ω) :
    trail.LeavesIn (coordinator.useWriter records connection writer) fun ended entries =>
      AttemptTrail rows records connection (.answered ended.1.1) ended.1.2 entries := by
  have hwrite : trail.Leaves (coordinator.store.write writer records connection)
      fun ended entries =>
        AttemptTrail rows records connection (.answered ended.1) ended.2.2 entries := by
    intro world
    obtain ⟨more, hrows, hleads⟩ := htracked.write writer records connection world
    exact ⟨_, hleads, .answered _ hrows⟩
  rw [Coordinator.useWriter]
  apply hwrite.lift.bind
  intro ended entries hended
  exact Trail.leavesIn_pure (by rwa [List.append_nil])

/-- An attempt to write a group leaves the entry of the writer, if it comes to that. -/
theorem leavesIn_writeOnce (table : String) (records : List Record) (connection : κ) :
    trail.LeavesIn (coordinator.writeOnce table records connection) fun ended =>
      AttemptTrail rows records connection ended.1 ended.2 := by
  rw [Coordinator.writeOnce]
  apply (Trail.leavesNothing_get htracked.workshop table).bind
  intro found
  cases found with
  | error reason => exact Trail.leavesIn_pure (.unavailable reason)
  | ok handle =>
      have hused : trail.LeavesIn
          (Workshop.withWriter handle (coordinator.useWriter records connection))
          fun used entries =>
            (∀ closed, used = .error closed → entries = []) ∧
              ∀ written, used = .ok written →
                AttemptTrail rows records connection (.answered written.1) written.2 entries := by
        refine Trail.leavesIn_withWriter (fun writer => ?_) fun _ => by simp
        apply (leavesIn_useWriter htracked records connection writer).imp
        intro ended entries hended
        refine ⟨by simp, fun written hwritten => ?_⟩
        rwa [← Except.ok.inj hwritten]
      apply hused.bind
      intro used entries hentries
      cases used with
      | error closed =>
          obtain rfl := hentries.1 closed rfl
          exact Trail.leavesIn_pure (.refused closed)
      | ok written =>
          rw [← List.append_nil entries] at hentries
          exact Trail.leavesIn_pure (hentries.2 written rfl)

/-- A group is tried again only if nothing was written. -/
theorem leavesFrom_writeGroup (group : Group) (turn : Turn σ κ ω) :
    trail.LeavesFrom turn.cache turn.world
      (coordinator.writeGroup group.1 group.2 turn.connection) fun ended entries =>
        ∃ attempt, ended.1 = attempt.result ∧
          coordinator.Concludes trail.toRunner group turn attempt ∧
          AttemptTrail rows group.2 turn.connection attempt ended.2 entries := by
  have hattempt (turn : Turn σ κ ω) := leavesIn_writeOnce htracked group.1 group.2 turn.connection
    turn.cache turn.world
  rw [Coordinator.writeGroup]
  apply (hattempt turn).bind_on
  rintro ⟨tried, changed⟩ after later entries hrun htrail
  obtain ⟨htries, hsame⟩ := Coordinator.onTurn_writeOnce (Runner.onTurn_of_run hrun)
  cases tried with
  | unavailable reason =>
      exact Trail.leavesIn_pure ⟨.unavailable reason, rfl, .once htries (by simp),
        by rwa [List.append_nil]⟩ _ _
  | answered answer =>
      exact Trail.leavesIn_pure ⟨.answered answer, rfl, .once htries (by simp),
        by rwa [List.append_nil]⟩ _ _
  | refused closed =>
      cases htrail
      have hnext := hsame closed rfl
      apply (hattempt ⟨after, later, turn.connection⟩).bind_on
      rintro ⟨again, last⟩ final end_ more hmore htrail
      obtain ⟨hagain, -⟩ := Coordinator.onTurn_writeOnce (Runner.onTurn_of_run hmore)
      rw [hnext] at hagain
      have hconcludes := Coordinator.Concludes.again htries hagain
      cases again with
      | unavailable reason =>
          exact Trail.leavesIn_pure ⟨_, rfl, hconcludes, by rwa [List.append_nil]⟩ _ _
      | answered answer =>
          exact Trail.leavesIn_pure ⟨_, rfl, hconcludes, by rwa [List.append_nil]⟩ _ _
      | refused e =>
          exact Trail.leavesIn_pure ⟨_, rfl, hconcludes, by rwa [List.append_nil]⟩ _ _

/-- The savepoint of a group is taken where the rows of the group begin. -/
theorem leavesIn_savepoint (connection : κ) :
    trail.LeavesIn
      (Coordinator.onConnection (ω := ω) coordinator.store.savepoint connection)
      fun ended entries => entries = [] ∧ ∀ mark, ended.1 = .ok mark →
        coordinator.store.Marks trail.toRunner rows →
          mark = (rows connection).length ∧ rows ended.2 = rows connection := by
  apply Trail.Leaves.lift
  exact fun world => ⟨[], htracked.savepoint connection world, rfl, fun mark hmark hmarks =>
    hmarks.savepoint connection world mark hmark⟩

/-- Rolling back to the savepoint of a group takes the rows of the group off. -/
theorem leavesIn_rollbackTo (mark : Nat) (connection : κ) :
    trail.LeavesIn
      (Coordinator.onConnection (ω := ω) (coordinator.store.rollbackTo mark) connection)
      fun ended entries => entries = [] ∧ (ended.1 = .ok () →
        coordinator.store.Marks trail.toRunner rows → mark ≤ (rows connection).length →
          rows ended.2 = (rows connection).take mark) := by
  apply Trail.Leaves.lift
  exact fun world => ⟨[], htracked.rollbackTo mark connection world, rfl, fun hok hmarks hmark =>
    hmarks.rollbackTo mark connection world hmark hok⟩

variable [LawfulMonad m]

theorem leavesOn_failGroup (group : Group) (cause : FailureCause) (connection : κ) :
    trail.LeavesOn connection
      (coordinator.failGroup (ω := ω) group.1 group.2 cause) fun result changed entries =>
        changed = connection ∧
          Routes (group.2.map fun record => (record, cause)) result entries ∧
          ∀ outcome, result = .ok outcome →
            outcome = { table := group.1, errored := group.2.length } := by
  rw [Coordinator.failGroup]
  have hroutes : trail.LeavesOn connection
      (Coordinator.attempt (coordinator.routeAll cause group.2) : Coordinator.Writing _ κ ω Unit)
      fun result changed entries => changed = connection ∧
        Routes (group.2.map fun record => (record, cause)) result entries :=
    Trail.leavesOn_attempt ((leaves_routeAll htracked cause group.2).imp
      fun _ _ hroutes => ⟨rfl, hroutes⟩)
  apply hroutes.bind
  · rintro e changed entries ⟨hchanged, hstop⟩
    exact ⟨hchanged, hstop, by simp⟩
  · rintro _ changed entries ⟨hchanged, hentries⟩
    apply Trail.leavesOn_pure
    rw [List.append_nil]
    exact ⟨hchanged, hentries, fun outcome houtcome => (Except.ok.inj houtcome).symm⟩

/-- A group that is given up is routed record by record. -/
theorem leavesOn_giveUp {group : Group} {ending : Ending ρ} {cause : FailureCause}
    {turn : Turn σ κ ω} {connection : κ}
    (hmet : (Fate.mk group ending).Met coordinator trail.toRunner turn)
    (hcause : (Fate.mk group ending).cause? = some cause)
    (hrollback : coordinator.rollbackOnError = false)
    (hrows : coordinator.store.Marks trail.toRunner rows →
      rows connection = rows turn.connection) :
    trail.LeavesOn connection
      (coordinator.failGroup (ω := ω) group.1 group.2 cause) fun result changed more =>
        GroupEnds coordinator trail.toRunner rows group turn result changed
          ((Fate.mk group ending).writes ++ more) := by
  have hgivenUp := Fate.givenUp_of_cause hcause
  apply Trail.LeavesIn.imp (leavesOn_failGroup htracked group cause connection)
  rintro ⟨result, changed⟩ more ⟨hchanged, hroutes, hok⟩
  obtain rfl : changed = connection := hchanged
  cases result with
  | error e => exact .halted e changed (Halts.append (.inl hroutes) (Fate.filterMap_writes _))
  | ok outcome =>
      have hentries : (Fate.mk group ending).writes ++ more = (Fate.mk group ending).entries := by
        rw [Fate.entries, hgivenUp.failures]
        exact congrArg _ hroutes
      rw [hok outcome rfl, ← hgivenUp.outcome, hentries]
      apply GroupEnds.met ending hmet
      · simp [hrollback]
      · intro hmarks
        rw [hrows hmarks, hgivenUp.kept, List.append_nil]

/-- The rows of a group that failed are cut off before it is given up. -/
theorem leavesOn_undo {group : Group} {ending : Ending ρ} {e : StoreError} {mark : Nat}
    {turn : Turn σ κ ω} {connection : κ}
    (hmet : (Fate.mk group ending).Met coordinator trail.toRunner turn)
    (hcause : (Fate.mk group ending).cause? = some (.store group.1 e))
    (hrollback : coordinator.rollbackOnError = false)
    (hrows : coordinator.store.Marks trail.toRunner rows →
      mark = (rows turn.connection).length ∧
        ∃ more, rows connection = rows turn.connection ++ more) :
    trail.LeavesOn connection
      (do
        match ← liftM (Coordinator.onConnection (ω := ω) (coordinator.store.rollbackTo mark)) with
        | .error source => throw (.store group.1 source)
        | .ok () => coordinator.failGroup group.1 group.2 (.store group.1 e))
      fun result changed entries =>
        GroupEnds coordinator trail.toRunner rows group turn result changed
          ((Fate.mk group ending).writes ++ entries) := by
  apply Trail.leavesOn_lift_bind (fun undone changed entries => entries = [] ∧
    (undone = .ok () → coordinator.store.Marks trail.toRunner rows →
      mark ≤ (rows connection).length → rows changed = (rows connection).take mark))
    (leavesIn_rollbackTo htracked mark connection)
  rintro undone changed _ ⟨rfl, hundone⟩
  cases undone with
  | error source =>
      exact Trail.leavesOn_throw (.halted _ _ (.inr (by
        rw [List.append_nil, List.append_nil, Fate.filterMap_writes])))
  | ok _ =>
      apply leavesOn_giveUp htracked hmet hcause hrollback
      intro hmarks
      obtain ⟨hmark, more, hmore⟩ := hrows hmarks
      have hle : mark ≤ (rows connection).length := by
        rw [hmark, hmore, List.length_append]
        exact Nat.le_add_right _ _
      rw [hundone rfl hmarks hle, hmark, hmore, List.take_left]

/-- What becomes of a group at its turn. -/
theorem leavesAt_processGroup (group : Group) (turn : Turn σ κ ω) :
    trail.LeavesAt turn (coordinator.processGroup group.1 group.2)
      (GroupEnds coordinator trail.toRunner rows group turn) := by
  rw [Coordinator.processGroup]
  apply Trail.leavesAt_lift_bind (fun marked changed entries => entries = [] ∧
    ∀ mark, marked = .ok mark → coordinator.store.Marks trail.toRunner rows →
      mark = (rows turn.connection).length ∧ rows changed = rows turn.connection)
    (leavesIn_savepoint htracked turn.connection _ _)
  rintro marked before _ hsavepoint ⟨rfl, hmarked⟩
  cases marked with
  | error e => exact (Trail.leavesOn_throw_bind (.halted _ _ (.inr rfl))).leavesAt
  | ok mark =>
      simp only [pure_bind, List.nil_append]
      apply Trail.leavesAt_lift_bind (fun result written entries =>
        ∃ attempt, result = attempt.result ∧
          coordinator.Concludes trail.toRunner group before attempt ∧
          AttemptTrail rows group.2 before.connection attempt written entries)
        (leavesFrom_writeGroup htracked group before)
      rintro result ⟨cache, world, written⟩ entries _ ⟨attempt, rfl, hconcludes, hwritten⟩
      apply Trail.LeavesOn.leavesAt
      have hmark := hmarked mark rfl
      have hmet (ending : Ending ρ) (hattempt : ending.attempt = attempt) :
          (Fate.mk group ending).Met coordinator trail.toRunner turn := by
        rw [Fate.Met, hsavepoint, hattempt]
        exact hconcludes
      cases hwritten with
      | unavailable reason =>
          simp only [Coordinator.Attempt.result]
          split
          · exact Trail.leavesOn_throw (.halted _ _ (.inr rfl))
          · rename_i hrollback
            exact leavesOn_giveUp htracked (hmet (.unbuilt reason) rfl) rfl
              (Bool.eq_false_iff.mpr hrollback) fun hmarks => (hmark hmarks).2
      | refused e =>
          simp only [Coordinator.Attempt.result]
          split
          · exact Trail.leavesOn_throw (.halted _ _ (.inr rfl))
          · rename_i hrollback
            exact leavesOn_undo htracked (hmet (.refused e) rfl) rfl
              (Bool.eq_false_iff.mpr hrollback) fun hmarks =>
                ⟨(hmark hmarks).1, [], by rw [(hmark hmarks).2, List.append_nil]⟩
      | @answered answer _ more hrows =>
          have hkept (hmarks : coordinator.store.Marks trail.toRunner rows) :
              rows written = rows turn.connection ++ more := by
            rw [hrows, (hmark hmarks).2]
          cases answer with
          | error e =>
              simp only [Coordinator.Attempt.result]
              split
              · exact Trail.leavesOn_throw (.halted _ _ (.inr rfl))
              · rename_i hrollback
                exact leavesOn_undo htracked (hmet (.crashed e more) rfl) rfl
                  (Bool.eq_false_iff.mpr hrollback)
                  fun hmarks => ⟨(hmark hmarks).1, more, hkept hmarks⟩
          | ok report =>
              apply Trail.leavesOn_attempt
              apply (leaves_applyReport htracked group report more).imp
              intro applied entries happlied
              cases applied with
              | error e => exact .halted e _ (happlied.append rfl)
              | ok outcome =>
                  obtain ⟨rfl, rfl, hclean⟩ := happlied
                  exact .met (.finished report more) (hmet _ rfl) hclean hkept

end

end TableRouting
