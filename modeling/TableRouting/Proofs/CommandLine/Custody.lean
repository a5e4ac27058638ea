import Mathlib.Data.List.Perm.Basic
import Mathlib.Data.List.Range
import TableRouting.Proofs.CommandLine.Moves

/-!
# In whose hands the batches are

Of the batches whose numbers have been taken each one has been submitted or is in the hands
of one worker, and every failure that the sink answered is with one worker.  A single move
keeps this, so it holds after every run.
-/

namespace TableRouting.CommandLine

/-- One value of a list replaced: what is seen of the old value goes, and what is seen of
the new one comes. -/
theorem filterMap_set_perm {α β : Type} (f : α → Option β) {values : List α} {place : Nat}
    {old : α} (hold : values[place]? = some old) (new : α) :
    ((f old).toList ++ (values.set place new).filterMap f).Perm
      ((f new).toList ++ values.filterMap f) := by
  induction values generalizing place with
  | nil => simp at hold
  | cons value rest ih =>
      cases place with
      | zero =>
          obtain rfl : value = old := by simpa using hold
          rw [List.set_cons_zero, filterMap_cons_eq_append, filterMap_cons_eq_append]
          exact List.perm_append_comm_assoc _ _ _
      | succ place =>
          rw [List.set_cons_succ, filterMap_cons_eq_append, filterMap_cons_eq_append]
          have hrest := ih (by simpa using hold)
          exact (List.perm_append_comm_assoc _ _ _).trans
            ((hrest.append_left _).trans (List.perm_append_comm_assoc _ _ _))

namespace Worker

/-- The batch that a worker is about to submit, with its place. -/
def inHand? (worker : Worker) : Option (Batch × Nat) :=
  match worker.phase with
  | .writing index batch => some (batch, index)
  | _ => none

/-- The failure that a worker met, told or not. -/
def fault? (worker : Worker) : Option (Nat × SinkError) :=
  match worker.phase with
  | .failing index e => some (index, e)
  | _ => worker.failure

/-- A worker with a failure that it has told does nothing more. -/
def Quiet (worker : Worker) : Prop := worker.failure ≠ none → worker.phase = .ended

variable {worker after : Worker} {queue next : BatchQueue} {move : Move}

theorem Makes.quiet (hmakes : worker.Makes queue move after next) (hquiet : worker.Quiet) :
    after.Quiet := by
  intro hfailure
  have hended (hsame : after.failure = worker.failure) : worker.phase = .ended :=
    hquiet (hsame ▸ hfailure)
  cases hmakes with
  | stop hphase | runOut hphase | tell hphase => rfl
  | rest hphase => exact hphase
  | go hphase | take hphase | succeed hphase | fail hphase =>
      exact nomatch hphase.symm.trans (hended rfl)

theorem Makes.batches_eq (hmakes : worker.Makes queue move after next) :
    next.batches = queue.batches := by
  cases hmakes <;> rfl

/-- A worker that ends has seen the flag, has set it, or has found no batch any more. -/
theorem Makes.ended (hmakes : worker.Makes queue move after next)
    (hearlier : worker.phase = .ended → queue.stopped = true ∨ queue.batches.size ≤ queue.next)
    (hended : after.phase = .ended) : next.stopped = true ∨ next.batches.size ≤ next.next := by
  cases hmakes with
  | stop hphase hstopped => exact .inl hstopped
  | runOut hphase hnone => exact .inr (Nat.le_succ_of_le (Array.getElem?_eq_none_iff.mp hnone))
  | tell hphase => exact .inl rfl
  | rest hphase => exact hearlier hphase
  | go hphase | take hphase | succeed hphase | fail hphase => exact nomatch hended

/-- The flag stays set, and no number is given out again. -/
theorem Makes.queue_mono (hmakes : worker.Makes queue move after next) :
    (queue.stopped = true → next.stopped = true) ∧ queue.next ≤ next.next := by
  cases hmakes <;> simp

/-- Only a worker that met a failure sets the flag. -/
theorem Makes.fault_ne_none (hmakes : worker.Makes queue move after next)
    (hstopped : next.stopped = true) : queue.stopped = true ∨ worker.fault? ≠ none := by
  cases hmakes with
  | stop hphase | go hphase | take hphase | runOut hphase | succeed hphase | fail hphase
  | rest hphase => exact .inl hstopped
  | tell hphase =>
      right
      simp [fault?, hphase]

/-- What a worker takes it has in hand, and what it has in hand it submits. -/
theorem Makes.inHand_perm (hmakes : worker.Makes queue move after next) :
    (move.submission?.toList.map Submission.placed ++ after.inHand?.toList ++
        queue.batches.toList.zipIdx.take queue.next).Perm
      (worker.inHand?.toList ++ queue.batches.toList.zipIdx.take next.next) := by
  cases hmakes with
  | stop hphase | go hphase | tell hphase | rest hphase =>
      simp [Move.submission?, inHand?, hphase]
  | take hphase hbatch =>
      rw [← Array.getElem?_toList] at hbatch
      simpa [Move.submission?, inHand?, hphase, List.take_add_one, List.getElem?_zipIdx, hbatch]
        using (List.perm_append_singleton _ _).symm
  | runOut hphase hnone =>
      rw [← Array.getElem?_toList] at hnone
      simp [Move.submission?, inHand?, hphase, List.take_add_one, List.getElem?_zipIdx, hnone]
  | succeed hphase | fail hphase =>
      simp [Move.submission?, Submission.placed, inHand?, hphase]

theorem Makes.fault_eq (hmakes : worker.Makes queue move after next) (hquiet : worker.Quiet) :
    after.fault?.toList =
      (move.submission?.bind Submission.failure?).toList ++ worker.fault?.toList := by
  cases hmakes with
  | stop hphase | go hphase | take hphase | runOut hphase | succeed hphase | tell hphase
  | rest hphase =>
      simp [Move.submission?, Submission.failure?, fault?, hphase]
  | fail hphase =>
      have hnone : worker.failure = none := by
        by_contra hfailure
        exact nomatch hphase.symm.trans (hquiet hfailure)
      simp [Move.submission?, Submission.failure?, fault?, hphase, hnone]

end Worker

namespace Crew

/-- Where the batches and the failures are after moves from the start. -/
structure Accounts (batches : List Batch) (moves : List (Nat × Move)) (crew : Crew) : Prop where
  batches_eq : crew.queue.batches = batches.toArray
  /-- What has been taken has been submitted, or a worker has it in hand. -/
  handed : ((submissions moves).map Submission.placed ++
      crew.workers.toList.filterMap Worker.inHand?).Perm (batches.zipIdx.take crew.queue.next)
  faults : ((submissions moves).filterMap Submission.failure?).Perm
    (crew.workers.toList.filterMap Worker.fault?)
  quiet : ∀ worker ∈ crew.workers, worker.Quiet
  stopped : crew.queue.stopped = true → (submissions moves).filterMap Submission.failure? ≠ []
  /-- Workers end for a reason. -/
  ended : ∀ worker ∈ crew.workers, worker.phase = .ended →
    crew.queue.stopped = true ∨ batches.length ≤ crew.queue.next

theorem accounts_start (batches : List Batch) (workers : Nat) :
    Accounts batches [] (start batches workers) where
  batches_eq := rfl
  handed := by simp [start, submissions, Worker.inHand?]
  faults := by simp [start, submissions, Worker.fault?]
  quiet worker hworker hfailure := by
    obtain rfl := Array.eq_of_mem_replicate hworker
    exact absurd rfl hfailure
  stopped hstopped := nomatch hstopped
  ended worker hworker hended := by
    obtain rfl := Array.eq_of_mem_replicate hworker
    exact nomatch hended

variable {batches : List Batch} {moves more : List (Nat × Move)} {crew next after : Crew}
  {number : Nat} {move : Move}

section

variable {worker new : Worker} {queue : BatchQueue}

theorem Accounts.handed_step (haccounts : Accounts batches moves crew)
    (hworker : crew.workers[number]? = some worker)
    (hmakes : worker.Makes crew.queue move new queue) :
    ((submissions (moves ++ [(number, move)])).map Submission.placed ++
        (crew.workers.setIfInBounds number new).toList.filterMap Worker.inHand?).Perm
      (batches.zipIdx.take queue.next) := by
  rw [← Array.getElem?_toList] at hworker
  have hset := filterMap_set_perm Worker.inHand? hworker new
  have htaken := hmakes.inHand_perm
  have hhanded := haccounts.handed
  rw [haccounts.batches_eq] at htaken
  rw [submissions_concat, List.map_append, Array.toList_setIfInBounds]
  -- How often a placed batch stands on either side adds up from the three permutations.
  classical
  rw [List.perm_iff_count] at *
  intro placed
  have := hset placed
  have := htaken placed
  have := hhanded placed
  simp only [List.count_append] at *
  omega

theorem Accounts.faults_step (haccounts : Accounts batches moves crew)
    (hworker : crew.workers[number]? = some worker)
    (hmakes : worker.Makes crew.queue move new queue) :
    ((submissions (moves ++ [(number, move)])).filterMap Submission.failure?).Perm
      ((crew.workers.setIfInBounds number new).toList.filterMap Worker.fault?) := by
  have hmet := hmakes.fault_eq (haccounts.quiet worker (Array.mem_of_getElem? hworker))
  rw [← Array.getElem?_toList] at hworker
  have hset := filterMap_set_perm Worker.fault? hworker new
  have hfaults := haccounts.faults
  have hfailure : move.submission?.toList.filterMap Submission.failure? =
      (move.submission?.bind Submission.failure?).toList := by
    cases move.submission? with
    | none => rfl
    | some submission =>
        rw [Option.toList_some, filterMap_cons_eq_append]
        exact List.append_nil _
  rw [submissions_concat, List.filterMap_append, hfailure, Array.toList_setIfInBounds]
  rw [hmet] at hset
  classical
  rw [List.perm_iff_count] at *
  intro failure
  have := hset failure
  have := hfaults failure
  simp only [List.count_append] at *
  omega

/-- The flag is set only when a submission has failed. -/
theorem Accounts.stopped_step (haccounts : Accounts batches moves crew)
    (hworker : crew.workers[number]? = some worker)
    (hmakes : worker.Makes crew.queue move new queue) (hstopped : queue.stopped = true) :
    (submissions (moves ++ [(number, move)])).filterMap Submission.failure? ≠ [] := by
  rw [submissions_concat, List.filterMap_append]
  apply List.append_ne_nil_of_left_ne_nil
  rcases hmakes.fault_ne_none hstopped with hearlier | hfault
  · exact haccounts.stopped hearlier
  · obtain ⟨failure, hfailure⟩ := Option.ne_none_iff_exists'.mp hfault
    have hmem : worker ∈ crew.workers.toList :=
      Array.mem_toList_iff.mpr (Array.mem_of_getElem? hworker)
    have hmet : failure ∈ crew.workers.toList.filterMap Worker.fault? :=
      List.mem_filterMap.mpr ⟨worker, hmem, hfailure⟩
    exact List.ne_nil_of_mem (haccounts.faults.symm.subset hmet)

end

/-- A move leaves the accounts in order. -/
theorem Accounts.step (haccounts : Accounts batches moves crew)
    (hmakes : crew.Makes number move next) :
    Accounts batches (moves ++ [(number, move)]) next := by
  cases hmakes with
  | absent habsent =>
      have hsame : submissions (moves ++ [(number, .rest)]) = submissions moves :=
        (submissions_concat _ _ _).trans (List.append_nil _)
      exact { haccounts with
        handed := hsame ▸ haccounts.handed
        faults := hsame ▸ haccounts.faults
        stopped := hsame ▸ haccounts.stopped }
  | present worker new queue hworker hmakes =>
      have hmem : worker ∈ crew.workers := Array.mem_of_getElem? hworker
      have hold : ∀ other ∈ crew.workers.setIfInBounds number new,
          other ∈ crew.workers ∨ other = new :=
        fun other => Array.mem_or_eq_of_mem_setIfInBounds
      exact {
        batches_eq := hmakes.batches_eq.trans haccounts.batches_eq
        handed := haccounts.handed_step hworker hmakes
        faults := haccounts.faults_step hworker hmakes
        stopped := haccounts.stopped_step hworker hmakes
        quiet := by
          intro other hother
          rcases hold other hother with hearlier | rfl
          · exact haccounts.quiet other hearlier
          · exact hmakes.quiet (haccounts.quiet worker hmem)
        ended := by
          have hsize : queue.batches.size = batches.length := by
            rw [hmakes.batches_eq, haccounts.batches_eq, List.size_toArray]
          obtain ⟨hstays, hgrows⟩ := hmakes.queue_mono
          intro other hother hended
          rcases hold other hother with hearlier | rfl
          · exact (haccounts.ended other hearlier hended).imp hstays (·.trans hgrows)
          · rw [← hsize]
            apply hmakes.ended _ hended
            rw [haccounts.batches_eq, List.size_toArray]
            exact haccounts.ended worker hmem }

/-- The accounts are in order after every run. -/
theorem Accounts.run (haccounts : Accounts batches moves crew) (hruns : crew.Runs more after) :
    Accounts batches (moves ++ more) after := by
  induction hruns generalizing moves with
  | done crew => rwa [List.append_nil]
  | step hmakes hruns ih =>
      have hrest := ih (haccounts.step hmakes)
      rwa [List.append_assoc] at hrest

end Crew

end TableRouting.CommandLine
