import TableRouting.Proofs.Batch.Course
import TableRouting.Proofs.Metrics.Postings
import TableRouting.Sink.Basic

/-!
# What a call of a sink posts

A batch that is handed to an open sink is counted by postings that depend on the batch and
on the answer alone: those of an empty batch, of one that failed, or of one that was
committed, with the records of its tables.  An answer that is an outcome adds up: its totals
are those of its tables, with the records that did not resolve.
-/

namespace TableRouting

def TableOutcome.postings (outcome : TableOutcome) : List Posting :=
  [⟨.tableWritten outcome.table, outcome.written⟩, ⟨.tableErrored outcome.table, outcome.errored⟩]

def WriteOutcome.postings (outcome : WriteOutcome) : List Posting :=
  [⟨.batches, 1⟩, ⟨.written, outcome.written⟩, ⟨.errored, outcome.errored⟩,
    ⟨.discarded, outcome.discarded⟩] ++ outcome.tables.flatMap TableOutcome.postings

/-- A call of a sink: the batch that it was given, and what it answered. -/
structure AnsweredBatch where
  batch : List Record
  answer : Except SinkError WriteOutcome

namespace AnsweredBatch

def isEmpty (call : AnsweredBatch) : Bool := call.batch.isEmpty

def failed (call : AnsweredBatch) : Bool :=
  match call.answer with
  | .ok _ => false
  | .error _ => true

def outcome? (call : AnsweredBatch) : Option WriteOutcome :=
  match call.answer with
  | .ok outcome => some outcome
  | .error _ => none

def committed (call : AnsweredBatch) : Bool := !call.isEmpty && !call.failed

def postings (call : AnsweredBatch) : List Posting :=
  if call.isEmpty then [⟨.batches, 1⟩, ⟨.emptyBatches, 1⟩]
  else
    match call.answer with
    | .ok outcome => outcome.postings
    | .error _ => [⟨.batches, 1⟩, ⟨.fatalBatches, 1⟩]

/-- What is known of an answer. -/
structure Sound {m : Type → Type} {κ ω : Type} (coordinator : Coordinator m κ ω)
    (call : AnsweredBatch) : Prop where
  empty : call.batch = [] → call.answer = .ok {}
  outcome : ∀ outcome, call.answer = .ok outcome →
    outcome = .ofTables (coordinator.unresolved call.batch).length outcome.tables

end AnsweredBatch

theorem postAll_outcome (metrics : Metrics) (outcome : WriteOutcome) :
    metrics.postAll outcome.postings = Coordinator.countOutcome metrics outcome := by
  rw [WriteOutcome.postings, Metrics.postAll_append, Coordinator.countOutcome, Metrics.postAll,
    List.foldl_flatMap]
  rfl

variable {m : Type → Type} [Monad m] {σ κ ω : Type}

/-- The trail of effects of which nothing is noted. -/
def Trail.blank (runner : Runner m σ) : Trail m σ Unit where
  toRunner := runner
  Leads _ _ _ := True
  refl _ := trivial
  trans _ _ := trivial

/-- A blank trail is left by every coordinator. -/
theorem Coordinator.tracked_blank (coordinator : Coordinator m κ ω) (runner : Runner m σ) :
    coordinator.Tracked (fun _ => []) (Trail.blank runner) where
  workshop := ⟨fun _ _ => trivial, fun _ _ _ => trivial, fun _ _ _ => trivial⟩
  connect _ := trivial
  savepoint _ _ := trivial
  rollbackTo _ _ _ := trivial
  rollback _ _ := trivial
  route _ _ _ := trivial
  write _ _ _ _ := ⟨[], rfl, trivial⟩
  commit _ _ := trivial

theorem Trail.leavesIn_blank (runner : Runner m σ) {α : Type} (x : CacheT ω m α) :
    (blank runner).LeavesIn x fun _ _ => True :=
  fun _ _ => ⟨[], trivial, trivial⟩

theorem Trail.LeavesIn.and {runner : Runner m σ} {α : Type} {x : CacheT ω m α}
    {first second : α → Prop} (hfirst : (blank runner).LeavesIn x fun answer _ => first answer)
    (hsecond : (blank runner).LeavesIn x fun answer _ => second answer) :
    (blank runner).LeavesIn x fun answer _ => first answer ∧ second answer := by
  intro cache world
  obtain ⟨_, -, hthis⟩ := hfirst cache world
  obtain ⟨_, -, hthat⟩ := hsecond cache world
  exact ⟨[], trivial, hthis, hthat⟩

variable [LawfulMonad m]

/-- An outcome adds up. -/
theorem Coordinator.leavesIn_outcome (coordinator : Coordinator m κ ω) (runner : Runner m σ)
    (books : Books) (batch : List Record) :
    (Trail.blank runner).LeavesIn (coordinator.writeBatch books batch) fun answer _ =>
      ∀ outcome, answer.1 = .ok outcome →
        outcome = .ofTables (coordinator.unresolved batch).length outcome.tables := by
  intro cache world
  apply (leavesFrom_writeBatch (coordinator.tracked_blank runner) books batch cache world).imp
  intro answer entries htrail outcome hok
  rw [hok] at htrail
  cases htrail with
  | grouped hgroups =>
      cases hgroups with
      | committed fates kept hfates hmeets hclean hkept => rfl

omit [LawfulMonad m] in
/-- A batch changes the counters by what is posted for it. -/
theorem Coordinator.leavesIn_books (coordinator : Coordinator m κ ω) (runner : Runner m σ)
    (books : Books) (batch : List Record) :
    (Trail.blank runner).LeavesIn (coordinator.writeBatch books batch) fun answer _ =>
      (batch = [] → answer.1 = .ok {}) ∧
        (batch ≠ [] → answer.2.cleaner = books.cleaner) ∧
        answer.2.metrics =
          books.metrics.postAll (AnsweredBatch.postings ⟨batch, answer.1.mapError .write⟩) := by
  have htracked := coordinator.tracked_blank runner
  rw [Coordinator.writeBatch]
  cases batch with
  | nil =>
      apply (Trail.leavesNothing_maintain htracked.workshop books.cleaner).bind
      intro swept
      exact Trail.leavesIn_pure ⟨fun _ => rfl, fun hne => absurd rfl hne, rfl⟩
  | cons record rest =>
      have hnonempty : ¬ record :: rest = [] := List.cons_ne_nil record rest
      apply (Trail.leavesIn_blank runner (coordinator.writeRecords (record :: rest))).bind
      intro result entries _
      cases result with
      | error e =>
          exact Trail.leavesIn_pure ⟨fun hnil => absurd hnil hnonempty, fun _ => rfl, rfl⟩
      | ok outcome =>
          exact Trail.leavesIn_pure ⟨fun hnil => absurd hnil hnonempty, fun _ => rfl,
            (postAll_outcome books.metrics outcome).symm⟩

/-- Hand a batch to a sink: what it answers, and the sink afterwards. -/
def Runner.call (runner : Runner m σ) (sink : Sink m κ ω) (batch : List Record)
    (cache : WriterCache ω) (world : σ) : Except SinkError WriteOutcome × Sink m κ ω :=
  (runner.run (sink.writeBatch batch cache) world).1.1

/-- What an open sink makes of a batch. -/
structure Sink.Counts (sink : Sink m κ ω) (batch : List Record)
    (answer : Except SinkError WriteOutcome × Sink m κ ω) : Prop where
  sound : AnsweredBatch.Sound sink.coordinator ⟨batch, answer.1⟩
  coordinator : answer.2.coordinator = sink.coordinator
  isOpen : answer.2.isOpen = true
  metrics : answer.2.books.metrics =
    sink.books.metrics.postAll (AnsweredBatch.postings ⟨batch, answer.1⟩)
  cleaner : batch ≠ [] → answer.2.books.cleaner = sink.books.cleaner

theorem Sink.counts {sink : Sink m κ ω} (hopen : sink.isOpen = true) (runner : Runner m σ)
    (batch : List Record) (cache : WriterCache ω) (world : σ) :
    sink.Counts batch (runner.call sink batch cache world) := by
  have hcounts : (Trail.blank runner).LeavesIn (sink.writeBatch batch)
      fun answer _ => sink.Counts batch answer := by
    rw [Sink.writeBatch, if_pos hopen]
    apply ((sink.coordinator.leavesIn_outcome runner sink.books batch).and
      (sink.coordinator.leavesIn_books runner sink.books batch)).bind
    rintro ⟨result, books⟩ entries ⟨houtcome, hempty, hcleaner, hmetrics⟩
    apply Trail.leavesIn_pure
    refine ⟨⟨?_, ?_⟩, rfl, hopen, hmetrics, hcleaner⟩
    · intro hnil
      exact congrArg (Except.mapError SinkError.write) (hempty hnil)
    · intro outcome hok
      cases result with
      | error e => exact nomatch hok
      | ok written =>
          obtain rfl : written = outcome := Except.ok.inj hok
          exact houtcome written rfl
  obtain ⟨_, -, hresult⟩ := hcounts cache world
  exact hresult

end TableRouting
