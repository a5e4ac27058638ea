import Mathlib.Data.List.Nodup
import TableRouting.Proofs.Blocks
import TableRouting.Proofs.CommandLine.Stopping
import TableRouting.Proofs.CommandLine.Totals

/-!
# Every batch is submitted once

The records are cut into consecutive blocks, and workers hand these in.  Whoever moves when,
no block is submitted twice; when all workers have ended, the blocks that were submitted are
the first ones, all of them unless one failed, and the result is the sum of the outcomes or
a failure.  All workers do end.
-/

namespace TableRouting.CommandLine

variable {σ : Type}

theorem cutBatches_eq {size : Nat} (hsize : 0 < size) {bound : Nat} {records : List Record}
    (hbound : records.length ≤ bound) : cutBatches size bound records = blocksOf size records := by
  induction bound generalizing records with
  | zero =>
      obtain rfl := List.length_eq_zero_iff.mp (Nat.le_zero.mp hbound)
      rw [cutBatches, blocksOf_nil]
  | succ bound ih =>
      cases records with
      | nil => rw [cutBatches, blocksOf_nil]
      | cons record rest =>
          obtain ⟨fewer, rfl⟩ : ∃ fewer, size = fewer + 1 := ⟨size - 1, by omega⟩
          have hrest : (rest.drop fewer).length ≤ bound := by
            rw [List.length_cons] at hbound
            rw [List.length_drop]
            omega
          rw [cutBatches, blocksOf, List.take_succ_cons, List.drop_succ_cons, ih hrest,
            Nat.add_sub_cancel]
          exact List.cons_ne_nil record rest

theorem batchesOf_eq {size : Nat} (hsize : 0 < size) (records : List Record) :
    batchesOf size records = blocksOf size records :=
  cutBatches_eq hsize (Nat.le_refl _)

/-- Batches are the consecutive blocks of records of a size. -/
structure CutsInto (size : Nat) (records : List Record) (batches : List Batch) : Prop where
  flatten : batches.flatten = records
  ne_nil : ∀ batch ∈ batches, batch ≠ []
  length_le : ∀ batch ∈ batches, batch.length ≤ size
  /-- Only the last one may be smaller. -/
  length_eq : ∀ batch ∈ batches.dropLast, batch.length = size
  count : batches.length = (records.length + size - 1) / size

theorem cutsInto_batchesOf {size : Nat} (hsize : 0 < size) (records : List Record) :
    CutsInto size records (batchesOf size records) := by
  rw [batchesOf_eq hsize]
  exact {
    flatten := flatten_blocksOf size records
    ne_nil := fun _ => ne_nil_of_mem_blocksOf
    length_le := fun _ => length_le_of_mem_blocksOf hsize
    length_eq := fun _ => length_of_mem_dropLast_blocksOf hsize
    count := length_blocksOf hsize records }

def Crew.Ended (crew : Crew) : Prop := ∀ worker ∈ crew.workers, worker.phase = .ended

def submitted (moves : List (Nat × Move)) : List Nat := (submissions moves).map Submission.index

/-- What holds of the moves of workers on batches, and of the workers after them. -/
structure HandsIn (batches : List Batch) (moves : List (Nat × Move)) (crew : Crew) : Prop where
  /-- A batch is submitted under its number, and none twice. -/
  batch_eq : ∀ submission ∈ submissions moves, batches[submission.index]? = some submission.batch
  nodup : (submitted moves).Nodup
  /-- In the end the submitted batches are the first ones. -/
  initial : crew.Ended → ∃ count ≤ batches.length,
    (submitted moves).Perm (List.range count) ∧
      ((submissions moves).map Submission.batch).Perm (batches.take count)
  /-- In the end every batch has been submitted if none failed, and the outcomes add up. -/
  complete : crew.Ended → (∀ submission ∈ submissions moves, submission.failure? = none) →
    (submitted moves).Perm (List.range batches.length) ∧
      ((submissions moves).map Submission.batch).Perm batches ∧
      crew.result = .ok (.ofOutcomes (outcomes moves)) ∧ (outcomes moves).length = batches.length
  /-- In the end there is an error if a batch failed, and it is the error of such a one. -/
  failing : crew.Ended → (∃ submission ∈ submissions moves, submission.failure? ≠ none) →
    ∃ submission ∈ submissions moves, ∃ failure, submission.failure? = some failure ∧
      crew.result = .error failure
  /-- A worker sees the flag set when one has set it before, and not otherwise. -/
  flag : ∀ before number stopped later, moves = before ++ (number, .look stopped) :: later →
    (stopped = true ↔ ∃ teller, (teller, .tell) ∈ before)
  /-- A worker that has seen the flag set takes no number any more. -/
  quits : ∀ before number later, moves = before ++ (number, .look true) :: later →
    ∀ index, (number, .take index) ∉ later
  /-- A worker that has had so many turns has ended. -/
  ends : ∀ number worker, crew.workers[number]? = some worker →
    3 * batches.length + 2 ≤ (moves.map Prod.fst).count number → worker.phase = .ended

namespace Crew

variable {batches : List Batch} {moves : List (Nat × Move)} {crew : Crew}

namespace Accounts

theorem batch_eq (haccounts : Accounts batches moves crew) :
    ∀ submission ∈ submissions moves, batches[submission.index]? = some submission.batch := by
  intro submission hsubmission
  have htaken : submission.placed ∈ batches.zipIdx.take crew.queue.next :=
    haccounts.handed.subset (List.mem_append_left _ (List.mem_map_of_mem hsubmission))
  exact List.mem_zipIdx_iff_getElem?.mp (List.mem_of_mem_take htaken)

/-- The numbers that were submitted are among the first ones, each once. -/
theorem nodup (haccounts : Accounts batches moves crew) : (submitted moves).Nodup := by
  have hnumbers := haccounts.handed.map Prod.snd
  rw [List.map_append, List.map_map, List.map_take, List.zipIdx_map_snd, ← List.range_eq_range',
    List.take_range] at hnumbers
  have hall := hnumbers.nodup_iff.mpr List.nodup_range
  exact hall.sublist (List.sublist_append_left _ _)

/-- Workers that have ended have nothing in hand. -/
theorem placed_perm (haccounts : Accounts batches moves crew) (hended : crew.Ended) :
    ((submissions moves).map Submission.placed).Perm (batches.zipIdx.take crew.queue.next) := by
  have hnone : crew.workers.toList.filterMap Worker.inHand? = [] := by
    rw [List.filterMap_eq_nil_iff]
    intro worker hworker
    rw [Worker.inHand?, hended worker (Array.mem_toList_iff.mp hworker)]
  have hhanded := haccounts.handed
  rwa [hnone, List.append_nil] at hhanded

theorem submitted_perm (haccounts : Accounts batches moves crew) (hended : crew.Ended) :
    (submitted moves).Perm (List.range (min crew.queue.next batches.length)) := by
  have hnumbers := (haccounts.placed_perm hended).map Prod.snd
  rwa [List.map_map, List.map_take, List.zipIdx_map_snd, ← List.range_eq_range',
    List.take_range] at hnumbers

theorem batch_perm (haccounts : Accounts batches moves crew) (hended : crew.Ended) :
    ((submissions moves).map Submission.batch).Perm (batches.take crew.queue.next) := by
  have hbatches := (haccounts.placed_perm hended).map Prod.fst
  rwa [List.map_map, List.map_take, List.zipIdx_map_fst] at hbatches

/-- The failures of workers are those that the sink answered, and the other way round. -/
theorem mem_faults_iff (haccounts : Accounts batches moves crew) (failure : Nat × SinkError) :
    (∃ submission ∈ submissions moves, submission.failure? = some failure) ↔
      ∃ worker ∈ crew.workers, worker.fault? = some failure := by
  have hfaults := haccounts.faults.mem_iff (a := failure)
  simpa only [List.mem_filterMap, Array.mem_toList_iff] using hfaults

theorem fault_eq (hended : crew.Ended) {worker : Worker} (hworker : worker ∈ crew.workers) :
    worker.fault? = worker.failure := by
  rw [Worker.fault?, hended worker hworker]

/-- If no submission failed then no worker did, and the flag is not set. -/
theorem quiet_of_complete (haccounts : Accounts batches moves crew) (hended : crew.Ended)
    (hnone : ∀ submission ∈ submissions moves, submission.failure? = none) :
    crew.queue.stopped = false ∧ ∀ worker ∈ crew.workers, worker.failure = none := by
  constructor
  · rw [← Bool.not_eq_true]
    intro hstopped
    exact haccounts.stopped hstopped (List.filterMap_eq_nil_iff.mpr hnone)
  · intro worker hworker
    by_contra hfailure
    obtain ⟨failure, hfailure⟩ := Option.ne_none_iff_exists'.mp hfailure
    obtain ⟨submission, hsubmission, hfailed⟩ := (haccounts.mem_faults_iff failure).mpr
      ⟨worker, hworker, (fault_eq hended hworker).trans hfailure⟩
    exact nomatch (hnone submission hsubmission).symm.trans hfailed

/-- Workers that end without a failure have found no batch any more. -/
theorem next_of_complete (haccounts : Accounts batches moves crew) (hended : crew.Ended)
    (hworkers : 0 < crew.workers.size)
    (hnone : ∀ submission ∈ submissions moves, submission.failure? = none) :
    batches.length ≤ crew.queue.next := by
  obtain ⟨hstopped, -⟩ := haccounts.quiet_of_complete hended hnone
  have hworker : crew.workers[0] ∈ crew.workers := Array.getElem_mem hworkers
  rcases haccounts.ended _ hworker (hended _ hworker) with hset | hnext
  · exact nomatch hstopped.symm.trans hset
  · exact hnext

/-- An error that a crew gives is one that the sink answered. -/
theorem result_of_failing (haccounts : Accounts batches moves crew) (hended : crew.Ended)
    (hfailing : ∃ submission ∈ submissions moves, submission.failure? ≠ none) :
    ∃ submission ∈ submissions moves, ∃ failure, submission.failure? = some failure ∧
      crew.result = .error failure := by
  obtain ⟨submission, hsubmission, hfailed⟩ := hfailing
  obtain ⟨failure, hfailure⟩ := Option.ne_none_iff_exists'.mp hfailed
  obtain ⟨worker, hworker, hfault⟩ :=
    (haccounts.mem_faults_iff failure).mp ⟨submission, hsubmission, hfailure⟩
  have hmet : worker.failure ≠ none := by
    rw [← fault_eq hended hworker, hfault]
    exact Option.some_ne_none failure
  obtain ⟨first, hfirst, given, hgiven, hresult⟩ := result_of_failure hworker hmet
  obtain ⟨answered, hanswered, hsame⟩ := (haccounts.mem_faults_iff given).mpr
    ⟨first, hfirst, (fault_eq hended hfirst).trans hgiven⟩
  exact ⟨answered, hanswered, given, hsame, hresult⟩

end Accounts

theorem length_outcomes (hnone : ∀ submission ∈ submissions moves, submission.failure? = none) :
    (outcomes moves).length = (submitted moves).length := by
  rw [outcomes, submitted, List.length_map, List.filterMap_length_eq_length]
  intro submission hsubmission
  have hsucceeded := hnone submission hsubmission
  cases hanswer : submission.answer with
  | ok outcome => simp [Submission.outcome?, Except.toOption, hanswer]
  | error e => simp [Submission.failure?, hanswer] at hsucceeded

/-- Workers hand in batches in every run from their start. -/
theorem Runs.handsIn {workers : Nat} (hworkers : 0 < workers)
    (hruns : (start batches workers).Runs moves crew) : HandsIn batches moves crew := by
  have haccounts : Accounts batches moves crew := (accounts_start batches workers).run hruns
  have hsize : 0 < crew.workers.size := by
    rw [hruns.size_eq]
    simpa [start] using hworkers
  exact {
    batch_eq := haccounts.batch_eq
    nodup := haccounts.nodup
    initial := by
      intro hended
      refine ⟨_, Nat.min_le_right _ _, haccounts.submitted_perm hended, ?_⟩
      rw [← List.take_take, List.take_length]
      exact haccounts.batch_perm hended
    complete := by
      intro hended hnone
      have hnext := haccounts.next_of_complete hended hsize hnone
      have hperm := haccounts.submitted_perm hended
      have hbatches := haccounts.batch_perm hended
      rw [Nat.min_eq_right hnext] at hperm
      rw [List.take_of_length_le hnext] at hbatches
      refine ⟨hperm, hbatches, ?_, ?_⟩
      · rw [result_of_quiet (haccounts.quiet_of_complete hended hnone).2, hruns.ofWorkers_eq]
      · rw [length_outcomes hnone, hperm.length_eq, List.length_range]
    failing := haccounts.result_of_failing
    flag := by
      rintro before number stopped later rfl
      obtain ⟨between, hbefore, hlater⟩ := hruns.split
      rw [← hlater.looked.1, hbefore.stopped_iff]
      simp [start]
    quits := by
      rintro before number later rfl index hmem
      obtain ⟨between, hbefore, hlater⟩ := hruns.split
      have hrests := hlater.looked.2 rfl _ hmem
      cases hrests
    ends := fun number worker => hruns.ended_of_count }

end Crew

/-- A crew that gives totals has counted every batch. -/
theorem HandsIn.batches_of_ok {batches : List Batch} {moves : List (Nat × Move)} {crew : Crew}
    (hhandsIn : HandsIn batches moves crew) (hended : crew.Ended) {summary : Summary}
    (hresult : crew.result = .ok summary) : summary.batches = batches.length := by
  by_cases hnone : ∀ submission ∈ submissions moves, submission.failure? = none
  · obtain ⟨-, -, htotal, hcount⟩ := hhandsIn.complete hended hnone
    obtain rfl := Except.ok.inj (htotal.symm.trans hresult)
    exact hcount
  · simp only [not_forall] at hnone
    obtain ⟨submission, hsubmission, hfailed⟩ := hnone
    obtain ⟨_, -, _, -, herror⟩ := hhandsIn.failing hended ⟨submission, hsubmission, hfailed⟩
    exact nomatch herror.symm.trans hresult

/-- Taking turns gives every worker the turns that it needs. -/
theorem count_turns {batches workers number : Nat} (hnumber : number < workers) :
    (turns batches workers).count number = 3 * batches + 2 := by
  have hround : (List.range workers).count number = 1 :=
    List.count_eq_one_of_mem List.nodup_range (List.mem_range.mpr hnumber)
  rw [turns, List.count_flatten, List.map_replicate, hround, List.sum_replicate_nat, Nat.mul_one]

/-- What handing in the blocks of records does, in whatever order workers move. -/
structure Dispatches (write : WriteBatch (StateM σ)) (size : Nat) (records : List Record)
    (workers : Nat) : Prop where
  cuts : CutsInto size records (batchesOf size records)
  run : ∀ schedule,
    let crew := Crew.start (batchesOf size records) (max workers 1)
    Journals (crew.run write.inJournal schedule) (crew.run write schedule) fun after calls =>
      ∃ moves, crew.Runs moves after ∧ moves.map Prod.fst = schedule ∧
        calls = (submissions moves).map Submission.call ∧
        HandsIn (batchesOf size records) moves after ∧ after.workers.size = max workers 1
  /-- The result is that of a run in which all workers end. -/
  answer :
    let batches := batchesOf size records
    Journals (dispatch write.inJournal batches workers) (dispatch write batches workers)
      fun result calls => ∃ moves after, (Crew.start batches (max workers 1)).Runs moves after ∧
        calls = (submissions moves).map Submission.call ∧
        HandsIn batches moves after ∧ after.Ended ∧ result = after.result ∧
        ∀ summary, result = .ok summary →
          summary.batches = (records.length + size - 1) / size

/-- Workers that take turns all end. -/
theorem Crew.ended_of_turns {batches : List Batch} {workers : Nat}
    {moves : List (Nat × Move)} {after : Crew} (hworkers : 0 < workers)
    (hruns : (start batches workers).Runs moves after)
    (hturns : moves.map Prod.fst = turns batches.length workers) : after.Ended := by
  intro worker hworker
  obtain ⟨number, hnumber⟩ := Array.getElem?_of_mem hworker
  apply (hruns.handsIn hworkers).ends number worker hnumber
  rw [hturns, count_turns]
  obtain ⟨hbound, -⟩ := Array.getElem?_eq_some_iff.mp hnumber
  rw [hruns.size_eq] at hbound
  simpa [start] using hbound

/-- Every batch is handed in once, or there is an error. -/
theorem dispatch_dispatches (write : WriteBatch (StateM σ)) {size : Nat} (hsize : 0 < size)
    (records : List Record) (workers : Nat) : Dispatches write size records workers := by
  have hworkers : 0 < max workers 1 := Nat.lt_of_lt_of_le Nat.one_pos (Nat.le_max_right _ _)
  constructor
  · exact cutsInto_batchesOf hsize records
  · intro schedule crew
    apply (crew.journals_run write schedule).imp
    rintro after calls ⟨moves, hruns, hschedule, hcalls⟩
    refine ⟨moves, hruns, hschedule, hcalls, hruns.handsIn hworkers, ?_⟩
    rw [hruns.size_eq]
    exact Array.size_replicate
  · intro batches
    rw [dispatch, dispatch]
    apply (Crew.journals_run write (.start batches (max workers 1)) _).bind
    rintro after calls ⟨moves, hruns, hturns, hcalls⟩
    apply journals_pure
    rw [List.append_nil]
    have hhandsIn := hruns.handsIn hworkers
    have hended := Crew.ended_of_turns hworkers hruns hturns
    refine ⟨moves, after, hruns, hcalls, hhandsIn, hended, rfl, fun summary hresult => ?_⟩
    rw [← (cutsInto_batchesOf hsize records).count]
    exact hhandsIn.batches_of_ok hended hresult

def writeInFull : WriteBatch (StateM Unit) := fun batch => pure (.ok { written := batch.length })

/-- Three records in pairs are two batches, which one worker hands in. -/
theorem dispatch_dispatches_pairs :
    0 < 2 ∧ Dispatches writeInFull 2 (List.replicate 3 { id := "r", value := .null }) 0 ∧
      (dispatch writeInFull (batchesOf 2 (List.replicate 3 { id := "r", value := .null })) 0 ()).1 =
        .ok { batches := 2, written := 3 } :=
  ⟨by decide, dispatch_dispatches writeInFull (by decide) _ 0, rfl⟩

end TableRouting.CommandLine
