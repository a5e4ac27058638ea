import TableRouting.CommandLine.Dispatch
import TableRouting.Proofs.Journal

/-!
# The moves of workers

Workers that hand in batches share a queue and move one at a time.  A move is one look at
the flag, one number taken, one batch submitted or one failure told; what a move makes of a
worker and of the queue is a relation with one rule for each way to move on.  A crew that
runs through a schedule makes one move for each number in it, and the calls of the sink on
the way are the submissions among these moves.
-/

namespace TableRouting.CommandLine

variable {σ : Type}

theorem filterMap_cons_eq_append {α β : Type} (f : α → Option β) (value : α) (rest : List α) :
    (value :: rest).filterMap f = (f value).toList ++ rest.filterMap f := by
  cases hvalue : f value with
  | none => exact List.filterMap_cons_none hvalue
  | some image => exact List.filterMap_cons_some hvalue

/-- A batch that was handed to the sink, with its number and the answer. -/
structure Submission where
  index : Nat
  batch : Batch
  answer : Except SinkError WriteOutcome

namespace Submission

def call (submission : Submission) : Batch × Except SinkError WriteOutcome :=
  (submission.batch, submission.answer)

def placed (submission : Submission) : Batch × Nat := (submission.batch, submission.index)

def outcome? (submission : Submission) : Option WriteOutcome := submission.answer.toOption

def failure? (submission : Submission) : Option (Nat × SinkError) :=
  match submission.answer with
  | .ok _ => none
  | .error e => some (submission.index, e)

end Submission

/-- What a worker does in a step. -/
inductive Move where
  /-- It looks at the flag. -/
  | look (stopped : Bool)
  /-- It takes a number, for which there may be no batch. -/
  | take (index : Nat)
  | submit (submission : Submission)
  /-- It sets the flag. -/
  | tell
  | rest

def Move.submission? : Move → Option Submission
  | .submit submission => some submission
  | _ => none

def submissions (moves : List (Nat × Move)) : List Submission :=
  moves.filterMap fun move => move.2.submission?

theorem submissions_append (first second : List (Nat × Move)) :
    submissions (first ++ second) = submissions first ++ submissions second :=
  List.filterMap_append

theorem submissions_cons (number : Nat) (move : Move) (moves : List (Nat × Move)) :
    submissions ((number, move) :: moves) = move.submission?.toList ++ submissions moves :=
  filterMap_cons_eq_append _ _ _

theorem submissions_concat (moves : List (Nat × Move)) (number : Nat) (move : Move) :
    submissions (moves ++ [(number, move)]) = submissions moves ++ move.submission?.toList := by
  rw [submissions_append, submissions_cons]
  exact congrArg _ (List.append_nil _)

/-- How a worker makes a move, and what becomes of the worker and of the queue. -/
inductive Worker.Makes : Worker → BatchQueue → Move → Worker → BatchQueue → Prop
  | stop {worker : Worker} {queue : BatchQueue} (hphase : worker.phase = .looking)
      (hstopped : queue.stopped = true) :
      Makes worker queue (.look true) { worker with phase := .ended } queue
  | go {worker : Worker} {queue : BatchQueue} (hphase : worker.phase = .looking)
      (hstopped : queue.stopped = false) :
      Makes worker queue (.look false) { worker with phase := .taking } queue
  | take {worker : Worker} {queue : BatchQueue} {batch : Batch} (hphase : worker.phase = .taking)
      (hbatch : queue.batches[queue.next]? = some batch) :
      Makes worker queue (.take queue.next) { worker with phase := .writing queue.next batch }
        { queue with next := queue.next + 1 }
  | runOut {worker : Worker} {queue : BatchQueue} (hphase : worker.phase = .taking)
      (hnone : queue.batches[queue.next]? = none) :
      Makes worker queue (.take queue.next) { worker with phase := .ended }
        { queue with next := queue.next + 1 }
  | succeed {worker : Worker} {queue : BatchQueue} {index : Nat} {batch : Batch}
      (hphase : worker.phase = .writing index batch) (outcome : WriteOutcome) :
      Makes worker queue (.submit ⟨index, batch, .ok outcome⟩)
        { worker with phase := .looking, summary := worker.summary.count outcome } queue
  | fail {worker : Worker} {queue : BatchQueue} {index : Nat} {batch : Batch}
      (hphase : worker.phase = .writing index batch) (e : SinkError) :
      Makes worker queue (.submit ⟨index, batch, .error e⟩)
        { worker with phase := .failing index e } queue
  | tell {worker : Worker} {queue : BatchQueue} {index : Nat} {e : SinkError}
      (hphase : worker.phase = .failing index e) :
      Makes worker queue .tell { worker with phase := .ended, failure := some (index, e) }
        { queue with stopped := true }
  | rest {worker : Worker} {queue : BatchQueue} (hphase : worker.phase = .ended) :
      Makes worker queue .rest worker queue

namespace Crew

/-- How the worker of a number makes a move.  A number that no worker has is passed over. -/
inductive Makes : Crew → Nat → Move → Crew → Prop
  | absent {crew : Crew} {number : Nat} (habsent : crew.workers[number]? = none) :
      Makes crew number .rest crew
  | present {crew : Crew} {number : Nat} {move : Move} (worker after : Worker)
      (queue : BatchQueue) (hworker : crew.workers[number]? = some worker)
      (hmakes : worker.Makes crew.queue move after queue) :
      Makes crew number move { queue, workers := crew.workers.setIfInBounds number after }

/-- How workers make moves one after another. -/
inductive Runs : Crew → List (Nat × Move) → Crew → Prop
  | done (crew : Crew) : Runs crew [] crew
  | step {crew next after : Crew} {number : Nat} {move : Move} {moves : List (Nat × Move)}
      (hmakes : crew.Makes number move next) (hruns : Runs next moves after) :
      Runs crew ((number, move) :: moves) after

/-- A run is cut anywhere. -/
theorem Runs.split {crew after : Crew} {moves more : List (Nat × Move)}
    (hruns : crew.Runs (moves ++ more) after) :
    ∃ between, crew.Runs moves between ∧ between.Runs more after := by
  induction moves generalizing crew with
  | nil => exact ⟨crew, .done crew, hruns⟩
  | cons move rest ih =>
      cases hruns with
      | step hmakes hrest =>
          obtain ⟨between, hfirst, hsecond⟩ := ih hrest
          exact ⟨between, .step hmakes hfirst, hsecond⟩

end Crew

def WriteBatch.inJournal (write : WriteBatch (StateM σ)) :
    WriteBatch (JournalT (Batch × Except SinkError WriteOutcome) (StateM σ)) :=
  fun batch => enter (batch, ·) (write batch)

/-- A step of a worker is a move, and calls the sink if the move is a submission. -/
theorem Worker.journals_step (write : WriteBatch (StateM σ)) (worker : Worker)
    (queue : BatchQueue) :
    Journals (worker.step write.inJournal queue) (worker.step write queue) fun ended calls =>
      ∃ move : Move, worker.Makes queue move ended.1 ended.2 ∧
        calls = move.submission?.toList.map Submission.call := by
  rw [Worker.step, Worker.step]
  split
  next hphase =>
    apply journals_pure
    split
    next hstopped => exact ⟨.look true, .stop hphase hstopped, rfl⟩
    next hstopped => exact ⟨.look false, .go hphase (Bool.eq_false_iff.mpr hstopped), rfl⟩
  next hphase =>
    rw [BatchQueue.take]
    dsimp only
    cases hbatch : queue.batches[queue.next]? with
    | none => exact journals_pure ⟨.take queue.next, .runOut hphase hbatch, rfl⟩
    | some batch => exact journals_pure ⟨.take queue.next, .take hphase hbatch, rfl⟩
  next index batch hphase =>
    apply (journals_enter (batch, ·) (write batch)).bind
    rintro answer calls rfl
    cases answer with
    | ok outcome =>
        exact journals_pure ⟨.submit ⟨index, batch, .ok outcome⟩, .succeed hphase outcome, rfl⟩
    | error e => exact journals_pure ⟨.submit ⟨index, batch, .error e⟩, .fail hphase e, rfl⟩
  next index e hphase => exact journals_pure ⟨.tell, .tell hphase, rfl⟩
  next hphase => exact journals_pure ⟨.rest, .rest hphase, rfl⟩

namespace Crew

theorem journals_step (write : WriteBatch (StateM σ)) (crew : Crew) (number : Nat) :
    Journals (crew.step write.inJournal number) (crew.step write number) fun after calls =>
      ∃ move : Move, crew.Makes number move after ∧
        calls = move.submission?.toList.map Submission.call := by
  rw [Crew.step, Crew.step]
  split
  next habsent => exact journals_pure ⟨.rest, .absent habsent, rfl⟩
  next worker hworker =>
    apply (worker.journals_step write crew.queue).bind
    rintro ended calls ⟨move, hmakes, hcalls⟩
    apply journals_pure
    rw [List.append_nil]
    exact ⟨move, .present _ _ _ hworker hmakes, hcalls⟩

/-- A crew makes the moves of a schedule, and the calls of the sink on the way are the
submissions among them. -/
theorem journals_run (write : WriteBatch (StateM σ)) (crew : Crew) (schedule : List Nat) :
    Journals (crew.run write.inJournal schedule) (crew.run write schedule) fun after calls =>
      ∃ moves, crew.Runs moves after ∧ moves.map Prod.fst = schedule ∧
        calls = (submissions moves).map Submission.call := by
  induction schedule generalizing crew with
  | nil => exact journals_pure ⟨[], .done crew, rfl, rfl⟩
  | cons number rest ih =>
      rw [run, run]
      apply (journals_step write crew number).bind
      rintro next calls ⟨move, hmakes, rfl⟩
      apply (ih next).imp
      rintro after more ⟨moves, hruns, hschedule, rfl⟩
      refine ⟨(number, move) :: moves, .step hmakes hruns, ?_, ?_⟩
      · rw [List.map_cons, hschedule]
      · rw [submissions_cons, List.map_append]

end Crew

end TableRouting.CommandLine
