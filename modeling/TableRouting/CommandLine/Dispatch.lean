import TableRouting.Batch.Outcome
import TableRouting.Sink.Error

/-!
# Handing in batches

Workers share the list of batches. Each worker, over and over, looks whether
another one has failed, takes the next batch and writes it; it ends when there is
none left, and a failure makes every worker end at its next look. A worker moves
in steps that are atomic, so a run of several workers is a sequence of numbers:
whose step comes next.
-/

namespace TableRouting.CommandLine

/-- Totals over committed batches. -/
structure Summary where
  batches : Nat := 0
  written : Nat := 0
  errored : Nat := 0
  discarded : Nat := 0
  deriving DecidableEq, Repr

namespace Summary

def count (summary : Summary) (outcome : WriteOutcome) : Summary where
  batches := summary.batches + 1
  written := summary.written + outcome.written
  errored := summary.errored + outcome.errored
  discarded := summary.discarded + outcome.discarded

def merge (first second : Summary) : Summary where
  batches := first.batches + second.batches
  written := first.written + second.written
  errored := first.errored + second.errored
  discarded := first.discarded + second.discarded

end Summary

/-- Cut records into consecutive batches of a size, the last one perhaps smaller.
The first argument bounds the number of batches. -/
def cutBatches (size : Nat) : Nat → List Record → List Batch
  | 0, _ => []
  | _ + 1, [] => []
  | fuel + 1, records => records.take size :: cutBatches size fuel (records.drop size)

/-- The batches of records. There are no more of them than records. -/
def batchesOf (size : Nat) (records : List Record) : List Batch :=
  cutBatches size records.length records

/-- What workers share. -/
structure BatchQueue where
  batches : Array Batch
  /-- The number of the batch that is taken next. -/
  next : Nat := 0
  /-- A worker has failed. -/
  stopped : Bool := false

/-- Take a number. Gives its batch if there is one. -/
def BatchQueue.take (queue : BatchQueue) : Option (Nat × Batch) × BatchQueue :=
  ((queue.batches[queue.next]?).map (queue.next, ·), { queue with next := queue.next + 1 })

/-- Where a worker is. -/
inductive WorkerPhase where
  /-- About to look whether another worker failed. -/
  | looking
  /-- About to take a batch. -/
  | taking
  /-- About to write a batch. -/
  | writing (index : Nat) (batch : Batch)
  /-- About to tell the others of a failure. -/
  | failing (index : Nat) (error : SinkError)
  | ended

structure Worker where
  phase : WorkerPhase := .looking
  summary : Summary := {}
  /-- The batch that failed, by its number. -/
  failure : Option (Nat × SinkError) := none

variable {m : Type → Type} [Monad m]

abbrev WriteBatch (m : Type → Type) := Batch → m (Except SinkError WriteOutcome)

def Worker.step (write : WriteBatch m) (worker : Worker) (queue : BatchQueue) :
    m (Worker × BatchQueue) :=
  match worker.phase with
  | .looking =>
    pure ({ worker with phase := if queue.stopped then .ended else .taking }, queue)
  | .taking =>
    let (taken, queue) := queue.take
    match taken with
    | some (index, batch) => pure ({ worker with phase := .writing index batch }, queue)
    | none => pure ({ worker with phase := .ended }, queue)
  | .writing index batch => do
    match ← write batch with
    | .ok outcome =>
      pure ({ worker with phase := .looking, summary := worker.summary.count outcome }, queue)
    | .error e => pure ({ worker with phase := .failing index e }, queue)
  | .failing index e =>
    pure ({ worker with phase := .ended, failure := some (index, e) },
      { queue with stopped := true })
  | .ended => pure (worker, queue)

/-- Workers with what they share. -/
structure Crew where
  queue : BatchQueue
  workers : Array Worker

namespace Crew

def start (batches : List Batch) (workers : Nat) : Crew where
  queue := { batches := batches.toArray }
  workers := Array.replicate workers {}

def step (write : WriteBatch m) (crew : Crew) (number : Nat) : m Crew :=
  match crew.workers[number]? with
  | none => pure crew
  | some worker => do
    let (worker, queue) ← worker.step write crew.queue
    pure { queue, workers := crew.workers.setIfInBounds number worker }

def run (write : WriteBatch m) (crew : Crew) : List Nat → m Crew
  | [] => pure crew
  | number :: rest => do
    let crew ← crew.step write number
    run write crew rest

/-- The totals of all workers, or the failure of the first of them that failed. -/
def result (crew : Crew) : Except (Nat × SinkError) Summary :=
  crew.workers.toList.foldl
    (fun result worker =>
      match result, worker.failure with
      | .error e, _ => .error e
      | .ok _, some failure => .error failure
      | .ok summary, none => .ok (summary.merge worker.summary))
    (.ok {})

end Crew

/-- The schedule in which workers take turns. A worker makes three steps for a
batch, and two more to find out that there is none. -/
def turns (batches workers : Nat) : List Nat :=
  (List.replicate (3 * batches + 2) (List.range workers)).flatten

def dispatch (write : WriteBatch m) (batches : List Batch) (workers : Nat) :
    m (Except (Nat × SinkError) Summary) := do
  let workers := max workers 1
  let crew ← (Crew.start batches workers).run write (turns batches.length workers)
  pure crew.result

end TableRouting.CommandLine
