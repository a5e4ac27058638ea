import Mathlib.Algebra.BigOperators.Group.List.Basic
import Mathlib.Algebra.Ring.Nat
import TableRouting.Proofs.CommandLine.Custody

/-!
# What workers report together

Each worker adds up the outcomes of the batches that it submitted.  All of them together
have added up all outcomes, and the result of a crew is this total unless a worker failed.
-/

namespace TableRouting.CommandLine

namespace Summary

def ofOutcomes (outcomes : List WriteOutcome) : Summary where
  batches := outcomes.length
  written := (outcomes.map WriteOutcome.written).sum
  errored := (outcomes.map WriteOutcome.errored).sum
  discarded := (outcomes.map WriteOutcome.discarded).sum

/-- A number of a summary is added up over outcomes. -/
structure Adds (total : Summary → Nat) (amount : WriteOutcome → Nat) : Prop where
  empty : total {} = 0
  count : ∀ summary outcome, total (summary.count outcome) = total summary + amount outcome
  merge : ∀ first second, total (first.merge second) = total first + total second

theorem adds_batches : Adds batches fun _ => 1 := ⟨rfl, fun _ _ => rfl, fun _ _ => rfl⟩

theorem adds_written : Adds written WriteOutcome.written :=
  ⟨rfl, fun _ _ => rfl, fun _ _ => rfl⟩

theorem adds_errored : Adds errored WriteOutcome.errored :=
  ⟨rfl, fun _ _ => rfl, fun _ _ => rfl⟩

theorem adds_discarded : Adds discarded WriteOutcome.discarded :=
  ⟨rfl, fun _ _ => rfl, fun _ _ => rfl⟩

def ofWorkers (workers : List Worker) : Summary :=
  workers.foldl (fun summary worker => summary.merge worker.summary) {}

variable {total : Summary → Nat} {amount : WriteOutcome → Nat}

theorem Adds.ofWorkers (hadds : Adds total amount) (workers : List Worker) :
    total (ofWorkers workers) = (workers.map fun worker => total worker.summary).sum := by
  have hfold : ∀ summary : Summary,
      total (workers.foldl (fun summary worker => summary.merge worker.summary) summary) =
        total summary + (workers.map fun worker => total worker.summary).sum := by
    induction workers with
    | nil => exact fun _ => rfl
    | cons worker rest ih =>
        intro summary
        rw [List.foldl_cons, ih, hadds.merge, List.map_cons, List.sum_cons, Nat.add_assoc]
  rw [Summary.ofWorkers, hfold, hadds.empty, Nat.zero_add]

end Summary

def outcomes (moves : List (Nat × Move)) : List WriteOutcome :=
  (submissions moves).filterMap Submission.outcome?

variable {total : Summary → Nat} {amount : WriteOutcome → Nat}

theorem Worker.Makes.total_summary {worker after : Worker} {queue next : BatchQueue}
    {move : Move} (hadds : Summary.Adds total amount)
    (hmakes : worker.Makes queue move after next) :
    total after.summary = total worker.summary +
      ((move.submission?.toList.filterMap Submission.outcome?).map amount).sum := by
  cases hmakes with
  | succeed hphase outcome =>
      simp [Move.submission?, Submission.outcome?, Except.toOption, hadds.count]
  | stop hphase | go hphase | take hphase | runOut hphase | fail hphase | tell hphase
  | rest hphase =>
      simp [Move.submission?, filterMap_cons_eq_append, Submission.outcome?, Except.toOption]

namespace Crew

variable {crew next after : Crew} {number : Nat} {move : Move} {moves : List (Nat × Move)}

theorem Makes.sum_summary (hadds : Summary.Adds total amount)
    (hmakes : crew.Makes number move next) :
    (next.workers.toList.map fun worker => total worker.summary).sum =
      (crew.workers.toList.map fun worker => total worker.summary).sum +
        ((move.submission?.toList.filterMap Submission.outcome?).map amount).sum := by
  cases hmakes with
  | absent habsent => rfl
  | present worker moved queue hworker hmakes =>
      have hmoved := hmakes.total_summary hadds
      rw [← Array.getElem?_toList] at hworker
      have hset := (filterMap_set_perm (fun worker => some (total worker.summary)) hworker
        moved).sum_eq
      simp only [List.sum_append, Option.toList_some, List.sum_singleton,
        List.filterMap_eq_map'] at hset
      rw [Array.toList_setIfInBounds]
      omega

/-- What the workers have added up are the outcomes. -/
theorem Runs.sum_summary (hadds : Summary.Adds total amount) (hruns : crew.Runs moves after) :
    (after.workers.toList.map fun worker => total worker.summary).sum =
      (crew.workers.toList.map fun worker => total worker.summary).sum +
        ((outcomes moves).map amount).sum := by
  induction hruns with
  | done crew => rfl
  | step hmakes hruns ih =>
      rw [ih, hmakes.sum_summary hadds, outcomes, outcomes, submissions_cons,
        List.filterMap_append, List.map_append, List.sum_append, Nat.add_assoc]

theorem Runs.ofWorkers_eq {batches : List Batch} {workers : Nat}
    (hruns : (start batches workers).Runs moves after) :
    Summary.ofWorkers after.workers.toList = .ofOutcomes (outcomes moves) := by
  have htotal {total : Summary → Nat} {amount : WriteOutcome → Nat}
      (hadds : Summary.Adds total amount) :
      total (Summary.ofWorkers after.workers.toList) = ((outcomes moves).map amount).sum := by
    rw [hadds.ofWorkers, hruns.sum_summary hadds]
    simp [start, hadds.empty]
  have hbatches := htotal Summary.adds_batches
  have hwritten := htotal Summary.adds_written
  have herrored := htotal Summary.adds_errored
  have hdiscarded := htotal Summary.adds_discarded
  rw [List.map_const', List.sum_replicate_nat, Nat.mul_one] at hbatches
  rw [Summary.ofOutcomes, ← hbatches, ← hwritten, ← herrored, ← hdiscarded]

/-- The result so far with the one of the next worker. -/
def gather (result : Except (Nat × SinkError) Summary) (worker : Worker) :
    Except (Nat × SinkError) Summary :=
  match result, worker.failure with
  | .error e, _ => .error e
  | .ok _, some failure => .error failure
  | .ok summary, none => .ok (summary.merge worker.summary)

theorem gather_of_none {worker : Worker} (hnone : worker.failure = none) (summary : Summary) :
    gather (.ok summary) worker = .ok (summary.merge worker.summary) := by
  simp only [gather, hnone]

theorem gather_of_failure {worker : Worker} {failure : Nat × SinkError}
    (hfailure : worker.failure = some failure) (summary : Summary) :
    gather (.ok summary) worker = .error failure := by
  simp only [gather, hfailure]

theorem foldl_gather_error (failure : Nat × SinkError) (workers : List Worker) :
    workers.foldl gather (.error failure) = .error failure := by
  induction workers with
  | nil => rfl
  | cons worker rest ih => exact ih

theorem result_of_quiet (hquiet : ∀ worker ∈ crew.workers, worker.failure = none) :
    crew.result = .ok (.ofWorkers crew.workers.toList) := by
  have hfold : ∀ (workers : List Worker) (summary : Summary),
      (∀ worker ∈ workers, worker.failure = none) →
      workers.foldl gather (.ok summary) =
        .ok (workers.foldl (fun summary worker => summary.merge worker.summary) summary) := by
    intro workers
    induction workers with
    | nil => exact fun _ _ => rfl
    | cons worker rest ih =>
        intro summary hnone
        rw [List.foldl_cons, List.foldl_cons, gather_of_none (hnone worker List.mem_cons_self)]
        exact ih _ fun other hother => hnone other (List.mem_cons_of_mem _ hother)
  exact hfold _ _ fun worker hworker => hquiet worker (Array.mem_toList_iff.mp hworker)

/-- A crew of which a worker failed gives the failure of one that did. -/
theorem result_of_failure {worker : Worker} (hworker : worker ∈ crew.workers)
    (hfailure : worker.failure ≠ none) :
    ∃ failed ∈ crew.workers, ∃ failure, failed.failure = some failure ∧
      crew.result = .error failure := by
  have hfold : ∀ (workers : List Worker) (summary : Summary), worker ∈ workers →
      ∃ failed ∈ workers, ∃ failure, failed.failure = some failure ∧
        workers.foldl gather (.ok summary) = .error failure := by
    intro workers
    induction workers with
    | nil => exact fun _ hmem => nomatch hmem
    | cons first rest ih =>
        intro summary hmem
        cases hfirst : first.failure with
        | some failure =>
            refine ⟨first, List.mem_cons_self, failure, hfirst, ?_⟩
            rw [List.foldl_cons, gather_of_failure hfirst, foldl_gather_error]
        | none =>
            rcases List.mem_cons.mp hmem with rfl | hlater
            · exact absurd hfirst hfailure
            · obtain ⟨failed, hfailed, failure, hmet, hresult⟩ := ih _ hlater
              refine ⟨failed, List.mem_cons_of_mem _ hfailed, failure, hmet, ?_⟩
              rw [List.foldl_cons, gather_of_none hfirst, hresult]
  obtain ⟨failed, hfailed, hresult⟩ :=
    hfold crew.workers.toList {} (Array.mem_toList_iff.mpr hworker)
  exact ⟨failed, Array.mem_toList_iff.mp hfailed, hresult⟩

end Crew

end TableRouting.CommandLine
