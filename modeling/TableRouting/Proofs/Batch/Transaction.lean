import Mathlib.Data.List.Nodup
import TableRouting.Proofs.Batch.Calls
import TableRouting.Proofs.Grouping

/-!
# Batches are transactions

Whatever the parts of a coordinator answer, a batch is one transaction: on one
connection the groups are written, each once and behind a savepoint of its own, and
in the end the connection is either committed or rolled back.
-/

namespace TableRouting

variable {σ κ ω α : Type}

namespace Coordinator

variable {m : Type → Type} (coordinator : Coordinator m κ ω) (batch : List Record)

def groups : List Group :=
  groupByTable (coordinator.resolved batch)

variable {coordinator batch}

theorem mem_resolved {table : String} {record : Record} :
    (table, record) ∈ coordinator.resolved batch ↔
      record ∈ batch ∧ coordinator.resolve record = .ok table := by
  rw [resolved, List.mem_filterMap]
  constructor
  · rintro ⟨other, hmem, hother⟩
    cases hresolve : coordinator.resolve other with
    | error e => simp [hresolve] at hother
    | ok found =>
        rw [hresolve] at hother
        obtain ⟨rfl, rfl⟩ := Prod.mk.inj (Option.some.inj hother)
        exact ⟨hmem, hresolve⟩
  · rintro ⟨hmem, hresolve⟩
    exact ⟨record, hmem, by rw [hresolve]⟩

/-- Without a record that resolves there are no groups. -/
theorem groups_eq_nil
    (hbatch : ∀ record ∈ batch, ∀ table, coordinator.resolve record ≠ .ok table) :
    coordinator.groups batch = [] := by
  have hresolved : coordinator.resolved batch = [] := by
    rw [List.eq_nil_iff_forall_not_mem]
    rintro ⟨table, record⟩ hmem
    obtain ⟨hrecord, hresolve⟩ := mem_resolved.mp hmem
    exact hbatch record hrecord table hresolve
  rw [groups, hresolved, groupByTable, Grouping.group_eq]
  rfl

/-- The records of a group resolve to its table. -/
theorem resolve_of_mem_groups {group : Group} (hgroup : group ∈ coordinator.groups batch) :
    ∀ record ∈ group.2, coordinator.resolve record = .ok group.1 := by
  obtain ⟨table, records⟩ := group
  obtain ⟨-, rfl⟩ := Grouping.mem_group.mp hgroup
  intro record hrecord
  obtain ⟨⟨other, same⟩, hpair, rfl⟩ := List.mem_map.mp hrecord
  obtain ⟨hmem, htable⟩ := List.mem_filter.mp hpair
  obtain rfl : other = table := eq_of_beq htable
  exact (mem_resolved.mp hmem).2

/-- No two groups have the same records. -/
theorem nodup_groups : ((coordinator.groups batch).map Prod.snd).Nodup := by
  have hnodup : (coordinator.groups batch).Nodup :=
    List.Nodup.of_map Prod.fst (Grouping.nodup_group _)
  apply hnodup.map_on
  rintro ⟨table, records⟩ hgroup ⟨other, same⟩ hother hsame
  obtain rfl : records = same := hsame
  obtain ⟨record, hrecord⟩ := List.exists_mem_of_ne_nil _ (Grouping.group_ne_nil hgroup)
  have htable : table = other := Except.ok.inj
    ((resolve_of_mem_groups hgroup record hrecord).symm.trans
      (resolve_of_mem_groups hother record hrecord))
  rw [htable]

end Coordinator

section

variable (coordinator : Coordinator (StateM σ) κ ω)

theorem notes_routeAll (cause : FailureCause) (records : List Record) :
    Notes (coordinator.watched.routeAll cause records) (coordinator.routeAll cause records)
      fun _ calls => calls = [] := by
  induction records with
  | nil => exact notes_pure rfl
  | cons record rest ih =>
      rw [Coordinator.routeAll, Coordinator.routeAll]
      apply (notes_lift _).silent_bind
      intro routed
      cases routed with
      | error e => exact notes_pure rfl
      | ok _ => exact ih

theorem notes_routeUnresolved (failures : List (Record × EvaluationError)) :
    Notes (coordinator.watched.routeUnresolved failures) (coordinator.routeUnresolved failures)
      fun _ calls => calls = [] := by
  induction failures with
  | nil => exact notes_pure rfl
  | cons failure rest ih =>
      rw [Coordinator.routeUnresolved, Coordinator.routeUnresolved]
      apply (notes_lift _).silent_bind
      intro routed
      cases routed with
      | error e => exact notes_pure rfl
      | ok _ => exact ih

theorem notes_routeFailures (table : String) (records : List Record) (errored : Nat)
    (failures : List RecordFailure) :
    Notes (coordinator.watched.routeFailures table records errored failures)
      (coordinator.routeFailures table records errored failures) fun _ calls => calls = [] := by
  induction failures generalizing errored with
  | nil => exact notes_pure rfl
  | cons failure rest ih =>
      rw [Coordinator.routeFailures, Coordinator.routeFailures]
      cases records[failure.index]? with
      | none => exact ih errored
      | some record =>
          apply (notes_lift _).silent_bind
          intro routed
          cases routed with
          | error e => exact notes_pure rfl
          | ok _ => exact ih (errored + 1)

theorem notes_applyReport (table : String) (records : List Record) (report : WriteReport) :
    Notes (coordinator.watched.applyReport table records report)
      (coordinator.applyReport table records report) fun _ calls => calls = [] := by
  rw [Coordinator.applyReport, Coordinator.applyReport]
  cases report.failures with
  | nil => exact notes_pure rfl
  | cons first rest =>
      have hrollback : coordinator.watched.rollbackOnError = coordinator.rollbackOnError := rfl
      simp only [hrollback]
      split
      · exact notes_pure rfl
      · apply (notes_routeFailures coordinator table records 0 _).silent_bind
        intro routed
        cases routed with
        | error e => exact notes_pure rfl
        | ok errored => exact notes_pure rfl

/-- A group is written when its writer answers, and only then. -/
theorem watches_writeOnce (table : String) (records : List Record) (connection : κ) :
    Watches (coordinator.watched.writeOnce table records connection)
      (coordinator.writeOnce table records connection) fun ended calls =>
        match ended.1 with
        | .unavailable _ | .refused _ => calls = []
        | .answered answer => calls = [.write records answer] := by
  rw [Coordinator.writeOnce, Coordinator.writeOnce]
  apply (silent_get _ table).bind
  intro found
  cases found with
  | error reason => exact watches_pure rfl
  | ok handle =>
      have huse (writer : ω) :
          Watches (coordinator.watched.useWriter records connection writer)
            (coordinator.useWriter records connection writer)
            fun ended calls => calls = [.write records ended.1.1] := by
        rw [Coordinator.useWriter, Coordinator.useWriter]
        apply (notes_noting _ _).watches.bind
        rintro ⟨answer, used, changed⟩ calls rfl
        exact watches_pure rfl
      have hused : Watches (Workshop.withWriter handle
            (coordinator.watched.useWriter records connection))
          (Workshop.withWriter handle (coordinator.useWriter records connection))
          fun used calls =>
            match used with
            | .error _ => calls = []
            | .ok written => calls = [.write records written.1] :=
        watches_withWriter huse fun _ => rfl
      apply hused.bind
      intro used calls hcalls
      cases used with
      | error closed => exact watches_pure (by rw [List.append_nil]; exact hcalls)
      | ok written => exact watches_pure (by rw [List.append_nil]; exact hcalls)

/-- A group is written at most once, also when a writer refuses first. -/
theorem watches_writeGroup (table : String) (records : List Record) (connection : κ) :
    Watches (coordinator.watched.writeGroup table records connection)
      (coordinator.writeGroup table records connection) fun ended =>
        WriteCalls records ended.1 := by
  rw [Coordinator.writeGroup, Coordinator.writeGroup]
  apply (watches_writeOnce coordinator table records connection).bind_on
  rintro ⟨attempt, changed⟩ calls hcalls
  cases attempt with
  | unavailable reason =>
      obtain rfl : calls = [] := hcalls
      exact watches_pure (.unwritten _)
  | answered answer =>
      obtain rfl : calls = [.write records answer] := hcalls
      exact watches_pure (.written answer)
  | refused closed =>
      obtain rfl : calls = [] := hcalls
      apply (watches_writeOnce coordinator table records changed).bind_on
      rintro ⟨attempt, changed⟩ calls hcalls
      cases attempt with
      | unavailable reason =>
          obtain rfl : calls = [] := hcalls
          exact watches_pure (.unwritten _)
      | answered answer =>
          obtain rfl : calls = [.write records answer] := hcalls
          exact watches_pure (.written answer)
      | refused closed =>
          obtain rfl : calls = [] := hcalls
          exact watches_pure (.unwritten _)

theorem conducts_failGroup (table : String) (records : List Record) (cause : FailureCause) :
    Conducts (coordinator.watched.failGroup (ω := ω) table records cause)
      (coordinator.failGroup table records cause) fun _ calls => calls = [] := by
  rw [Coordinator.failGroup, Coordinator.failGroup]
  apply (conducts_attempt (notes_routeAll coordinator cause records)).bind
  · rintro e calls rfl
    rfl
  · rintro _ calls rfl
    exact conducts_pure rfl

/-- The calls in which one group is written, whatever becomes of it. -/
theorem conducts_processGroup (table : String) (records : List Record) :
    Conducts (coordinator.watched.processGroup table records)
      (coordinator.processGroup table records) fun _ calls => GroupCalls records calls := by
  rw [Coordinator.processGroup, Coordinator.processGroup]
  apply Conducts.call_bind .savepoint
  intro marked
  cases marked with
  | error e => exact conducts_throw (.unmarked e)
  | ok mark =>
      simp only [pure_bind]
      apply Conducts.lift_bind (WriteCalls records) (watches_writeGroup coordinator table records)
      intro result written hwritten
      have hrollback : coordinator.watched.rollbackOnError = coordinator.rollbackOnError := rfl
      simp only [hrollback]
      have hkept : GroupCalls records (.savepoint (.ok mark) :: (written ++ [])) :=
        .marked mark hwritten.atMostOnce (.inl rfl)
      cases result with
      | error unavailable =>
          simp only
          split
          · exact conducts_throw hkept
          · apply (conducts_failGroup coordinator table records _).imp
            rintro failed calls rfl
            exact hkept
      | ok answer =>
          cases answer with
          | ok report =>
              apply (conducts_attempt (notes_applyReport coordinator table records report)).imp
              rintro applied calls rfl
              exact hkept
          | error e =>
              simp only
              split
              · exact conducts_throw hkept
              · apply Conducts.call_bind (.rollbackTo mark)
                intro undone
                have hundone : GroupCalls records
                    (.savepoint (.ok mark) :: (written ++ [.rollbackTo mark undone])) :=
                  .marked mark hwritten.atMostOnce (.inr ⟨undone, rfl⟩)
                cases undone with
                | error source => exact conducts_throw hundone
                | ok _ =>
                    apply (conducts_failGroup coordinator table records _).imp
                    rintro failed calls rfl
                    exact hundone

/-- Groups are written one after the other, and all of them unless one fails the batch. -/
theorem conducts_processGroups (done : List TableOutcome) (groups : List Group) :
    Conducts (coordinator.watched.processGroups done groups)
      (coordinator.processGroups done groups) fun result calls =>
        GroupsCalls groups calls ∧
          ∀ tables, result = .ok tables → calls.countP Call.isSavepoint = groups.length := by
  induction groups generalizing done with
  | nil => exact conducts_pure ⟨.nil [], fun _ _ => rfl⟩
  | cons group rest ih =>
      rw [Coordinator.processGroups, Coordinator.processGroups]
      apply (conducts_processGroup coordinator group.1 group.2).bind
      · intro e calls hcalls
        have hstopped := GroupsCalls.cons hcalls (.nil rest)
        rw [List.append_nil] at hstopped
        exact ⟨hstopped, by simp⟩
      · intro outcome calls hcalls
        apply (ih (outcome :: done)).imp
        rintro result more ⟨hmore, hall⟩
        refine ⟨.cons hcalls hmore, fun tables htables => ?_⟩
        rw [List.countP_append, hcalls.countP_isSavepoint, hall tables htables, List.length_cons,
          Nat.add_comm]

/-- The calls in which groups are written and committed, after the one for the
connection and before a rollback. -/
theorem conducts_writeAndCommit (unresolved : Nat) (groups : List Group) :
    Conducts (coordinator.watched.writeAndCommit unresolved groups)
      (coordinator.writeAndCommit unresolved groups) (CommitCalls groups) := by
  rw [Coordinator.writeAndCommit, Coordinator.writeAndCommit]
  apply (conducts_processGroups coordinator [] groups).bind
  · rintro e calls ⟨hcalls, -⟩
    simpa using CommitCalls.failed e hcalls (.inl rfl)
  · rintro tables calls ⟨hcalls, hall⟩
    apply Conducts.call_bind .commit
    intro committed
    cases committed with
    | error e => exact conducts_throw (.failed _ hcalls (.inr ⟨e, rfl⟩))
    | ok _ => exact conducts_pure (.committed _ hcalls (hall tables rfl))

/-- Groups are written in one transaction. -/
theorem watches_transact (unresolved : Nat) (groups : List Group) :
    Watches (coordinator.watched.transact unresolved groups)
      (coordinator.transact unresolved groups) (Transaction groups) := by
  rw [Coordinator.transact, Coordinator.transact]
  apply (notes_noting _ _).watches.bind
  rintro connected _ rfl
  cases connected with
  | error e => exact watches_pure (.refused _ e)
  | ok connection =>
      apply (conducts_writeAndCommit coordinator unresolved groups connection).bind
      rintro ⟨result, changed⟩ calls hcalls
      cases result with
      | ok outcome =>
          apply watches_pure
          rw [List.append_nil]
          exact .committed outcome hcalls
      | error e =>
          apply (notes_noting _ _).watches.bind
          rintro ⟨undone, closed⟩ _ rfl
          exact watches_pure (.rolledBack e hcalls undone)

theorem notes_group (batch : List Record) :
    Notes (coordinator.watched.group batch) (coordinator.group batch) fun grouped calls =>
      calls = [] ∧ ∀ groups unresolved, grouped = .ok (groups, unresolved) →
        groups = coordinator.groups batch := by
  rw [Coordinator.group, Coordinator.group]
  apply (notes_routeUnresolved coordinator _).silent_bind
  intro routed
  cases routed with
  | error e => exact notes_pure ⟨rfl, by simp⟩
  | ok _ =>
      refine notes_pure ⟨rfl, fun groups unresolved hgroups => ?_⟩
      exact (congrArg Prod.fst (Except.ok.inj hgroups)).symm

/-- The calls in which a batch is written that is not empty. -/
theorem watches_writeRecords (batch : List Record) :
    Watches (coordinator.watched.writeRecords batch) (coordinator.writeRecords batch)
      (BatchCalls (coordinator.groups batch)) := by
  rw [Coordinator.writeRecords, Coordinator.writeRecords]
  apply (notes_group coordinator batch).watches.bind
  rintro grouped calls ⟨rfl, hgroups⟩
  cases grouped with
  | error e => exact watches_pure (.none (by simp))
  | ok grouped =>
      obtain ⟨groups, unresolved⟩ := grouped
      obtain rfl := hgroups groups unresolved rfl
      simp only
      split
      · rename_i hgroups
        exact watches_pure (.none fun _ _ => List.isEmpty_iff.mp hgroups)
      · rename_i hgroups
        apply (watches_transact coordinator unresolved _).imp
        intro result calls hcalls
        exact .one (mt List.isEmpty_iff.mpr hgroups) hcalls

end

/-- Which of its events a batch is counted as. -/
inductive BatchEvent where
  | empty
  | fatal
  | committed
  deriving DecidableEq

namespace BatchEvent

/-- What counting an event does to the counters. -/
def Counted (before after : Metrics) : BatchEvent → Prop
  | .empty => after =
    { before with batches := before.batches + 1, emptyBatches := before.emptyBatches + 1 }
  | .fatal => after =
    { before with batches := before.batches + 1, fatalBatches := before.fatalBatches + 1 }
  | .committed => ∃ outcome : WriteOutcome, after =
    { before with
      batches := before.batches + 1
      written := before.written + .ofNat outcome.written
      errored := before.errored + .ofNat outcome.errored
      discarded := before.discarded + .ofNat outcome.discarded
      tableWritten := outcome.tables.foldl
        (fun counters counted => Metrics.addTo counters counted.table (.ofNat counted.written))
        before.tableWritten
      tableErrored := outcome.tables.foldl
        (fun counters counted => Metrics.addTo counters counted.table (.ofNat counted.errored))
        before.tableErrored }

def ofBatch (batch : List Record) (result : Except WriteError WriteOutcome) : BatchEvent :=
  if batch.isEmpty then .empty else if result.isOk then .committed else .fatal

/-- What an event adds to the counters of empty and of fatal batches. -/
def added : BatchEvent → UInt64 × UInt64
  | .empty => (1, 0)
  | .fatal => (0, 1)
  | .committed => (0, 0)

variable {before after : Metrics} {event other : BatchEvent}

/-- The records of every table are counted after the batch itself. -/
theorem counted_countOutcome (before : Metrics) (outcome : WriteOutcome) :
    Counted before (Coordinator.countOutcome before outcome) .committed := by
  have hfold (tables : List TableOutcome) (metrics : Metrics) :
      tables.foldl
        (fun metrics counted =>
          (metrics.addTableWritten counted.table (.ofNat counted.written)).addTableErrored
            counted.table (.ofNat counted.errored)) metrics =
        { metrics with
          tableWritten := tables.foldl
            (fun counters counted => Metrics.addTo counters counted.table (.ofNat counted.written))
            metrics.tableWritten
          tableErrored := tables.foldl
            (fun counters counted => Metrics.addTo counters counted.table (.ofNat counted.errored))
            metrics.tableErrored } := by
    induction tables generalizing metrics with
    | nil => rfl
    | cons counted rest ih => exact ih _
  exact ⟨outcome, hfold outcome.tables _⟩

theorem Counted.counters (hcounted : event.Counted before after) :
    after.emptyBatches = before.emptyBatches + event.added.1 ∧
      after.fatalBatches = before.fatalBatches + event.added.2 := by
  cases event with
  | empty =>
      obtain rfl : after = _ := hcounted
      simp [added]
  | fatal =>
      obtain rfl : after = _ := hcounted
      simp [added]
  | committed =>
      obtain ⟨outcome, rfl⟩ := hcounted
      simp [added]

/-- No two events are counted alike. -/
theorem Counted.unique (hcounted : event.Counted before after)
    (hother : other.Counted before after) : other = event := by
  have hadded : other.added = event.added := by
    apply Prod.ext
    · exact UInt64.add_right_inj _ |>.mp (hother.counters.1.symm.trans hcounted.counters.1)
    · exact UInt64.add_right_inj _ |>.mp (hother.counters.2.symm.trans hcounted.counters.2)
  revert hadded
  cases event <;> cases other <;> decide

end BatchEvent

/-- What a coordinator does in writing a batch: how it calls its store, and what it
counts. -/
structure Coordinator.Transacts (coordinator : Coordinator (StateM σ) κ ω) (books : Books)
    (batch : List Record) (answer : Except WriteError WriteOutcome × Books) (calls : List Call) :
    Prop where
  disciplined : Disciplined (coordinator.groups batch) answer.1 calls
  /-- No group is written twice. -/
  writtenOnce : (calls.filterMap Call.written?).Nodup
  /-- Without a record that resolves there is nothing to do. -/
  idle : (∀ record ∈ batch, ∀ table, coordinator.resolve record ≠ .ok table) → calls = []
  /-- One event is counted, the one of the batch. -/
  counted : ∀ event : BatchEvent, event.Counted books.metrics answer.2.metrics ↔
    event = .ofBatch batch answer.1

namespace Coordinator

variable {coordinator : Coordinator (StateM σ) κ ω} {books after : Books} {batch : List Record}
  {result : Except WriteError WriteOutcome} {calls : List Call}

theorem transacts_of_batchCalls (hcalls : BatchCalls (coordinator.groups batch) result calls)
    (hcounted : (BatchEvent.ofBatch batch result).Counted books.metrics after.metrics) :
    coordinator.Transacts books batch (result, after) calls where
  disciplined := hcalls.disciplined
  writtenOnce := nodup_groups.sublist hcalls.disciplined.written
  idle hbatch := by
    rw [groups_eq_nil hbatch] at hcalls
    cases hcalls with
    | none => rfl
    | one hgroups => exact absurd rfl hgroups
  counted event := by
    constructor
    · exact hcounted.unique
    · rintro rfl
      exact hcounted

/-- Whatever its parts do, a coordinator writes a batch as one transaction.  This is about
the answer that it gives and the calls that are noted while its store is watched. -/
theorem writeBatch_transacts (coordinator : Coordinator (StateM σ) κ ω) (books : Books)
    (batch : List Record) :
    Watches (coordinator.watched.writeBatch books batch) (coordinator.writeBatch books batch)
      (coordinator.Transacts books batch) := by
  rw [writeBatch, writeBatch]
  cases hempty : batch.isEmpty with
  | true =>
      simp only [if_true]
      apply (silent_maintain _ books.cleaner).bind
      rintro ⟨swept, cleaner⟩
      apply watches_pure
      have hgroups : coordinator.groups batch = [] := by
        rw [List.isEmpty_iff.mp hempty]
        exact groups_eq_nil (by simp)
      apply transacts_of_batchCalls (.none fun _ _ => hgroups)
      rw [BatchEvent.ofBatch, hempty]
      rfl
  | false =>
      simp only [Bool.false_eq_true, if_false]
      apply (watches_writeRecords coordinator batch).bind
      intro result calls hcalls
      cases result with
      | error e =>
          apply watches_pure
          rw [List.append_nil]
          apply transacts_of_batchCalls hcalls
          rw [BatchEvent.ofBatch, hempty]
          rfl
      | ok outcome =>
          apply watches_pure
          rw [List.append_nil]
          apply transacts_of_batchCalls hcalls
          rw [BatchEvent.ofBatch, hempty]
          exact BatchEvent.counted_countOutcome books.metrics outcome

end Coordinator

end TableRouting
