import TableRouting.Proofs.Metrics.AnsweredBatches
import TableRouting.Proofs.Sink.Outcomes

/-!
# Counters agree with answers

A sink is opened with empty counters and then called with batches, one after the other or at
the same time: of calls that overlap each makes its postings one by one, mixed with those of
the others.  When no posting is due, the counters show what the answers add up to, modulo
the size of a word.
-/

namespace TableRouting

variable {m : Type → Type} [Monad m] {σ κ ω : Type}

/-- How an open sink is used, with the batches that were answered and the postings that are
due for batches whose calls overlap.  What other callers do to the cache and to the world
comes between any two steps. -/
inductive Sink.Run (runner : Runner m σ) :
    Sink m κ ω → List AnsweredBatch → List (List Posting) → Prop
  | opened {config : Config} {limits : CacheLimits}
      {provide : WriterSpec → ConnectionConfig → m (Except ConfigIssue (Store m κ ω))}
      {route : Record → FailureCause → m (Except WriteError Unit)} {cache : WriterCache ω}
      {world : σ} {sink : Sink m κ ω}
      (hopen : (runner.run (Sink.openWith config limits provide route cache) world).1.1 =
        .ok sink) :
      Run runner sink [] []
  /-- A call from beginning to end. -/
  | called {sink : Sink m κ ω} {batches : List AnsweredBatch} {due : List (List Posting)}
      (hrun : Run runner sink batches due) (batch : List Record) (cache : WriterCache ω)
      (world : σ) :
      Run runner (runner.call sink batch cache world).2
        (batches ++ [⟨batch, (runner.call sink batch cache world).1⟩]) due
  /-- The batch of a call ends, and the call is yet to make its postings. -/
  | ended {sink : Sink m κ ω} {batches : List AnsweredBatch} {due : List (List Posting)}
      (hrun : Run runner sink batches due) (batch : List Record) (cache : WriterCache ω)
      (world : σ) (cleaner : Cleaner) :
      Run runner { sink with books := { sink.books with cleaner } }
        (batches ++ [⟨batch, (runner.call sink batch cache world).1⟩])
        (due ++ [AnsweredBatch.postings ⟨batch, (runner.call sink batch cache world).1⟩])
  /-- A call makes its next posting. -/
  | posted {sink : Sink m κ ω} {batches : List AnsweredBatch} {posting : Posting}
      {before : List (List Posting)} {rest : List Posting} {after : List (List Posting)}
      (hrun : Run runner sink batches (before ++ (posting :: rest) :: after)) :
      Run runner
        { sink with books := { sink.books with metrics := sink.books.metrics.post posting } }
        batches (before ++ rest :: after)

/-- The counters of an open sink at any moment of its use. -/
structure Sink.Tallied (sink : Sink m κ ω) (batches : List AnsweredBatch)
    (due : List (List Posting)) : Prop where
  isOpen : sink.isOpen = true
  sound : ∀ batch ∈ batches, AnsweredBatch.Sound sink.coordinator batch
  /-- What was posted, with what is due, are the postings for the batches. -/
  posted : ∃ postings, sink.books.metrics = ({} : Metrics).postAll postings ∧
    (postings ++ due.flatten).Perm (batches.flatMap AnsweredBatch.postings)

/-- A sink that opens is open, and nothing is counted yet. -/
theorem Sink.tallied_opened {runner : Runner m σ} {config : Config} {limits : CacheLimits}
    {provide : WriterSpec → ConnectionConfig → m (Except ConfigIssue (Store m κ ω))}
    {route : Record → FailureCause → m (Except WriteError Unit)} {cache : WriterCache ω}
    {world : σ} {sink : Sink m κ ω}
    (hopen : (runner.run (Sink.openWith config limits provide route cache) world).1.1 =
      .ok sink) : sink.Tallied [] [] := by
  have hends : (Trail.blank runner).LeavesIn (Sink.openWith config limits provide route)
      fun answer _ => ∀ sink, answer = .ok sink → sink.Tallied [] [] := by
    rw [Sink.openWith]
    split
    · exact Trail.leavesIn_pure fun sink hok => by cases hok
    · rename_i template hcheck
      apply (Trail.leavesIn_blank runner _).bind
      rintro (issue | store) - -
      · exact Trail.leavesIn_pure fun sink hok => by cases hok
      · apply (Trail.leavesIn_blank runner _).bind
        rintro (e | connection) - -
        · apply (Trail.leavesIn_blank runner _).bind
          intro closed _ _
          exact Trail.leavesIn_pure fun sink hok => by cases hok
        · apply (Trail.leavesIn_blank runner _).bind
          intro _ _ _
          apply (Trail.leavesIn_blank runner _).bind
          intro now _ _
          apply Trail.leavesIn_pure
          intro sink hok
          obtain rfl := Except.ok.inj hok
          exact ⟨rfl, fun batch hbatch => absurd hbatch List.not_mem_nil, [], rfl, .refl _⟩
  obtain ⟨_, -, hresult⟩ := hends cache world
  exact hresult sink hopen

namespace Sink.Tallied

variable {sink : Sink m κ ω} {batches : List AnsweredBatch} {due : List (List Posting)}
  {runner : Runner m σ}

theorem called [LawfulMonad m] (htallied : sink.Tallied batches due) (batch : List Record)
    (cache : WriterCache ω) (world : σ) :
    (runner.call sink batch cache world).2.Tallied
      (batches ++ [⟨batch, (runner.call sink batch cache world).1⟩]) due := by
  have hcounts := Sink.counts htallied.isOpen runner batch cache world
  obtain ⟨postings, hmetrics, hperm⟩ := htallied.posted
  refine ⟨hcounts.isOpen, ?_, ?_⟩
  · rw [hcounts.coordinator]
    intro answered hanswered
    rcases List.mem_append.mp hanswered with hbefore | hnow
    · exact htallied.sound answered hbefore
    · rw [List.mem_singleton.mp hnow]
      exact hcounts.sound
  · -- The postings of the call are made before those that are due.
    refine ⟨postings ++ AnsweredBatch.postings ⟨batch, (runner.call sink batch cache world).1⟩,
      ?_, ?_⟩
    · rw [hcounts.metrics, hmetrics, Metrics.postAll_append]
    · rw [List.flatMap_append, List.flatMap_singleton, List.append_assoc]
      refine (List.perm_append_comm.append_left postings).trans ?_
      rw [← List.append_assoc]
      exact hperm.append_right _

theorem ended [LawfulMonad m] (htallied : sink.Tallied batches due) (batch : List Record)
    (cache : WriterCache ω) (world : σ) (cleaner : Cleaner) :
    ({ sink with books := { sink.books with cleaner } } : Sink m κ ω).Tallied
      (batches ++ [⟨batch, (runner.call sink batch cache world).1⟩])
      (due ++ [AnsweredBatch.postings ⟨batch, (runner.call sink batch cache world).1⟩]) := by
  have hcounts := Sink.counts htallied.isOpen runner batch cache world
  obtain ⟨postings, hmetrics, hperm⟩ := htallied.posted
  refine ⟨htallied.isOpen, ?_, postings, hmetrics, ?_⟩
  · intro answered hanswered
    rcases List.mem_append.mp hanswered with hbefore | hnow
    · exact htallied.sound answered hbefore
    · rw [List.mem_singleton.mp hnow]
      exact hcounts.sound
  · rw [List.flatten_append, List.flatten_singleton, List.flatMap_append, List.flatMap_singleton,
      ← List.append_assoc]
    exact hperm.append_right _

omit [Monad m] in
theorem post {posting : Posting} {before after : List (List Posting)} {rest : List Posting}
    (htallied : sink.Tallied batches (before ++ (posting :: rest) :: after)) :
    ({ sink with books := { sink.books with metrics := sink.books.metrics.post posting } } :
      Sink m κ ω).Tallied batches (before ++ rest :: after) := by
  obtain ⟨postings, hmetrics, hperm⟩ := htallied.posted
  refine ⟨htallied.isOpen, htallied.sound, postings ++ [posting], ?_, ?_⟩
  · rw [Metrics.postAll_append, ← hmetrics]
    rfl
  · refine List.Perm.trans ?_ hperm
    rw [List.append_assoc]
    apply List.Perm.append_left
    simp only [List.flatten_append, List.flatten_cons, List.cons_append, List.nil_append]
    exact List.perm_middle.symm

end Sink.Tallied

/-- The counters of a sink are tallied at every moment. -/
theorem Sink.Run.tallied [LawfulMonad m] {runner : Runner m σ} {sink : Sink m κ ω}
    {batches : List AnsweredBatch} {due : List (List Posting)}
    (hrun : sink.Run runner batches due) : sink.Tallied batches due := by
  induction hrun with
  | opened hopen => exact Sink.tallied_opened hopen
  | called hrun batch cache world ih => exact ih.called batch cache world
  | ended hrun batch cache world cleaner ih => exact ih.ended batch cache world cleaner
  | posted hrun ih => exact ih.post

/-! ## What postings add up to -/

theorem sum_map_ite {α : Type} (p : α → Bool) (f : α → Nat) (list : List α) :
    (list.map fun x => if p x then f x else 0).sum = ((list.filter p).map f).sum := by
  induction list with
  | nil => rfl
  | cons x rest ih =>
      rw [List.map_cons, List.sum_cons, ih, List.filter_cons]
      split
      · rw [List.map_cons, List.sum_cons]
      · rw [Nat.zero_add]

def WriteOutcome.entriesOf (outcome : WriteOutcome) (table : String) : List TableOutcome :=
  outcome.tables.filter fun entry => entry.table = table

theorem WriteOutcome.amountTo_postings (outcome : WriteOutcome) (counters : Counter → Bool) :
    Posting.amountTo counters outcome.postings =
      (if counters .batches then 1 else 0) + (if counters .written then outcome.written else 0) +
      (if counters .errored then outcome.errored else 0) +
      (if counters .discarded then outcome.discarded else 0) +
      (outcome.tables.map fun entry =>
        (if counters (.tableWritten entry.table) then entry.written else 0) +
          (if counters (.tableErrored entry.table) then entry.errored else 0)).sum := by
  simp only [WriteOutcome.postings, TableOutcome.postings, Posting.amountTo_append,
    Posting.amountTo_cons, Posting.amountTo_nil, Posting.amountTo_flatMap, Nat.add_zero]
  omega

def outcomes (batches : List AnsweredBatch) : List WriteOutcome :=
  batches.filterMap AnsweredBatch.outcome?

namespace AnsweredBatch

variable {coordinator : Coordinator m κ ω} {batch : AnsweredBatch} {batches : List AnsweredBatch}

/-- What a number of the outcome comes to; none counts as nothing. -/
def count (batch : AnsweredBatch) (number : WriteOutcome → Nat) : Nat :=
  (batch.outcome?.map number).getD 0

theorem sum_count (number : WriteOutcome → Nat) (batches : List AnsweredBatch) :
    (batches.map fun batch => batch.count number).sum =
      ((outcomes batches).map number).sum := by
  induction batches with
  | nil => rfl
  | cons batch rest ih =>
      rw [List.map_cons, List.sum_cons, ih, outcomes, outcomes, List.filterMap_cons, count]
      cases batch.outcome? <;> simp

omit [Monad m] in
/-- The counters of records count what the outcomes say. -/
theorem amountTo_postings (hsound : batch.Sound coordinator) {counters : Counter → Bool}
    {number : WriteOutcome → Nat} (hbatches : counters .batches = false)
    (hempty : counters .emptyBatches = false) (hfatal : counters .fatalBatches = false)
    (hnumber : ∀ outcome, Posting.amountTo counters outcome.postings = number outcome) :
    Posting.amountTo counters batch.postings = batch.count number := by
  obtain ⟨records, answer⟩ := batch
  rw [postings, isEmpty]
  split
  · rename_i hnil
    obtain rfl : answer = .ok {} := hsound.empty (List.isEmpty_iff.mp hnil)
    simp [count, outcome?, ← hnumber, WriteOutcome.amountTo_postings, hbatches, hempty]
  · cases answer with
    | ok outcome => exact hnumber outcome
    | error e => simp [count, outcome?, hbatches, hfatal]

omit [Monad m] in
/-- A batch is empty, failed or committed, and one of these only. -/
theorem length_eq (hsound : ∀ batch ∈ batches, batch.Sound coordinator) :
    batches.length =
      batches.countP isEmpty + batches.countP failed + batches.countP committed := by
  induction batches with
  | nil => rfl
  | cons batch rest ih =>
      obtain ⟨hbatch, hrest⟩ := List.forall_mem_cons.mp hsound
      have hexclusive : ¬ (batch.isEmpty = true ∧ batch.failed = true) := by
        rintro ⟨hempty, hfailed⟩
        rw [failed, hbatch.empty (List.isEmpty_iff.mp hempty)] at hfailed
        exact Bool.false_ne_true hfailed
      rw [List.length_cons, ih hrest, List.countP_cons, List.countP_cons, List.countP_cons,
        committed]
      cases hempty : batch.isEmpty <;> cases hfailed : batch.failed <;>
        simp only [hempty, hfailed, Bool.not_true, Bool.not_false, Bool.and_true, Bool.and_false,
          Bool.false_eq_true, if_true, if_false, and_self, not_true] at hexclusive ⊢ <;>
        omega

theorem amountTo_batches (batch : AnsweredBatch) :
    Posting.amountTo (Metrics.Reading.one .batches).counters batch.postings = 1 := by
  obtain ⟨records, answer⟩ := batch
  rw [postings]
  split
  · rfl
  · cases answer with
    | ok outcome => simp [Metrics.Reading.one, WriteOutcome.amountTo_postings]
    | error e => rfl

theorem amountTo_emptyBatches (batch : AnsweredBatch) :
    Posting.amountTo (Metrics.Reading.one .emptyBatches).counters batch.postings =
      if batch.isEmpty then 1 else 0 := by
  obtain ⟨records, answer⟩ := batch
  rw [postings]
  split
  · rfl
  · cases answer with
    | ok outcome => simp [Metrics.Reading.one, WriteOutcome.amountTo_postings]
    | error e => rfl

omit [Monad m] in
theorem amountTo_fatalBatches (hsound : batch.Sound coordinator) :
    Posting.amountTo (Metrics.Reading.one .fatalBatches).counters batch.postings =
      if batch.failed then 1 else 0 := by
  obtain ⟨records, answer⟩ := batch
  rw [postings, isEmpty]
  split
  · rename_i hnil
    obtain rfl : answer = .ok {} := hsound.empty (List.isEmpty_iff.mp hnil)
    rfl
  · cases answer with
    | ok outcome => simp [Metrics.Reading.one, WriteOutcome.amountTo_postings, failed]
    | error e => rfl

theorem sum_map_one (p : AnsweredBatch → Bool) (batches : List AnsweredBatch) :
    (batches.map fun batch => if p batch then 1 else 0).sum = batches.countP p := by
  simp [sum_map_ite, List.countP_eq_length_filter]

omit [Monad m] in
theorem count_written (hsound : batch.Sound coordinator) :
    batch.count WriteOutcome.written =
      batch.count fun outcome => (outcome.tables.map TableOutcome.written).sum := by
  obtain ⟨records, answer⟩ := batch
  cases answer with
  | ok outcome => exact congrArg WriteOutcome.written (hsound.outcome outcome rfl)
  | error e => rfl

omit [Monad m] in
theorem count_errored (hsound : batch.Sound coordinator) :
    batch.count WriteOutcome.errored =
      (batch.count fun outcome => (outcome.tables.map TableOutcome.errored).sum) +
        if !batch.failed then (coordinator.unresolved batch.batch).length else 0 := by
  obtain ⟨records, answer⟩ := batch
  cases answer with
  | ok outcome =>
      have herrored := congrArg WriteOutcome.errored (hsound.outcome outcome rfl)
      exact herrored.trans (Nat.add_comm _ _)
  | error e => rfl

end AnsweredBatch

/-- The counters of a sink show what the answers to its batches add up to. -/
structure Sink.Agrees (sink : Sink m κ ω) (batches : List AnsweredBatch) : Prop where
  calls : sink.books.metrics.batches = UInt64.ofNat batches.length
  emptyBatches : sink.books.metrics.emptyBatches =
    UInt64.ofNat (batches.countP AnsweredBatch.isEmpty)
  fatalBatches : sink.books.metrics.fatalBatches =
    UInt64.ofNat (batches.countP AnsweredBatch.failed)
  /-- Every batch is empty, failed or committed, and one of these only. -/
  split : batches.length = batches.countP AnsweredBatch.isEmpty +
    batches.countP AnsweredBatch.failed + batches.countP AnsweredBatch.committed
  written : sink.books.metrics.written =
    UInt64.ofNat ((outcomes batches).map WriteOutcome.written).sum
  errored : sink.books.metrics.errored =
    UInt64.ofNat ((outcomes batches).map WriteOutcome.errored).sum
  discarded : sink.books.metrics.discarded =
    UInt64.ofNat ((outcomes batches).map WriteOutcome.discarded).sum
  tableWritten : ∀ table, sink.books.metrics.writtenTo table =
    UInt64.ofNat ((outcomes batches).map fun outcome =>
      ((outcome.entriesOf table).map TableOutcome.written).sum).sum
  tableErrored : ∀ table, sink.books.metrics.erroredIn table =
    UInt64.ofNat ((outcomes batches).map fun outcome =>
      ((outcome.entriesOf table).map TableOutcome.errored).sum).sum
  /-- The counters of the tables account for every record that was written. -/
  allWritten : Metrics.total sink.books.metrics.tableWritten = sink.books.metrics.written
  /-- They account for every record that failed, but for those without a table. -/
  allErrored : sink.books.metrics.errored =
    Metrics.total sink.books.metrics.tableErrored +
      UInt64.ofNat ((batches.filter fun batch => !batch.failed).map fun batch =>
        (sink.coordinator.unresolved batch.batch).length).sum

namespace Sink.Tallied

variable {sink : Sink m κ ω} {batches : List AnsweredBatch} {due : List (List Posting)}

omit [Monad m] in
/-- When no posting is due, every reading shows what the batches add up to. -/
theorem value_eq (htallied : sink.Tallied batches due) (hdone : due.flatten = [])
    (reading : Metrics.Reading) {amount : AnsweredBatch → Nat}
    (hamount : ∀ batch ∈ batches,
      Posting.amountTo reading.counters batch.postings = amount batch) :
    reading.value sink.books.metrics = UInt64.ofNat (batches.map amount).sum := by
  obtain ⟨postings, hmetrics, hperm⟩ := htallied.posted
  rw [hdone, List.append_nil] at hperm
  rw [hmetrics, reading.value_postAll, reading.value_empty, zero_add,
    Posting.amountTo_perm hperm, Posting.amountTo_flatMap, List.map_congr_left hamount]

omit [Monad m] in
/-- A reading of records shows what the outcomes add up to. -/
theorem value_eq_sum (htallied : sink.Tallied batches due) (hdone : due.flatten = [])
    (reading : Metrics.Reading) {number : WriteOutcome → Nat}
    (hbatches : reading.counters .batches = false)
    (hempty : reading.counters .emptyBatches = false)
    (hfatal : reading.counters .fatalBatches = false)
    (hnumber : ∀ outcome, Posting.amountTo reading.counters outcome.postings = number outcome) :
    reading.value sink.books.metrics = UInt64.ofNat ((outcomes batches).map number).sum := by
  rw [← AnsweredBatch.sum_count]
  apply htallied.value_eq hdone
  exact fun batch hbatch => AnsweredBatch.amountTo_postings (htallied.sound batch hbatch) hbatches
    hempty hfatal hnumber

omit [Monad m] in
theorem written_eq (htallied : sink.Tallied batches due) (hdone : due.flatten = []) :
    sink.books.metrics.written =
      UInt64.ofNat ((outcomes batches).map WriteOutcome.written).sum := by
  apply htallied.value_eq_sum hdone (.one .written) rfl rfl rfl
  intro outcome
  simp [Metrics.Reading.one, WriteOutcome.amountTo_postings]

omit [Monad m] in
theorem errored_eq (htallied : sink.Tallied batches due) (hdone : due.flatten = []) :
    sink.books.metrics.errored =
      UInt64.ofNat ((outcomes batches).map WriteOutcome.errored).sum := by
  apply htallied.value_eq_sum hdone (.one .errored) rfl rfl rfl
  intro outcome
  simp [Metrics.Reading.one, WriteOutcome.amountTo_postings]

omit [Monad m] in
theorem agrees (htallied : sink.Tallied batches due) (hdone : due.flatten = []) :
    sink.Agrees batches where
  calls := by
    have hvalue := htallied.value_eq hdone (.one .batches)
      fun batch _ => batch.amountTo_batches
    rwa [List.map_const', List.sum_replicate_nat, Nat.mul_one] at hvalue
  emptyBatches := by
    have hvalue := htallied.value_eq hdone (.one .emptyBatches)
      fun batch _ => batch.amountTo_emptyBatches
    rwa [AnsweredBatch.sum_map_one] at hvalue
  fatalBatches := by
    have hvalue := htallied.value_eq hdone (.one .fatalBatches)
      fun batch hbatch => AnsweredBatch.amountTo_fatalBatches (htallied.sound batch hbatch)
    rwa [AnsweredBatch.sum_map_one] at hvalue
  split := AnsweredBatch.length_eq htallied.sound
  written := htallied.written_eq hdone
  errored := htallied.errored_eq hdone
  discarded := by
    apply htallied.value_eq_sum hdone (.one .discarded) rfl rfl rfl
    intro outcome
    simp [Metrics.Reading.one, WriteOutcome.amountTo_postings]
  tableWritten table := by
    apply htallied.value_eq_sum hdone (.one (.tableWritten table)) rfl rfl rfl
    intro outcome
    rw [WriteOutcome.entriesOf, ← sum_map_ite]
    simp [Metrics.Reading.one, WriteOutcome.amountTo_postings]
  tableErrored table := by
    apply htallied.value_eq_sum hdone (.one (.tableErrored table)) rfl rfl rfl
    intro outcome
    rw [WriteOutcome.entriesOf, ← sum_map_ite]
    simp [Metrics.Reading.one, WriteOutcome.amountTo_postings]
  allWritten := by
    have htables : Metrics.total sink.books.metrics.tableWritten = UInt64.ofNat
        ((outcomes batches).map fun outcome =>
          (outcome.tables.map TableOutcome.written).sum).sum := by
      apply htallied.value_eq_sum hdone .written rfl rfl rfl
      intro outcome
      simp [Metrics.Reading.written, Counter.isTableWritten, WriteOutcome.amountTo_postings]
    rw [htables, htallied.written_eq hdone, ← AnsweredBatch.sum_count, ← AnsweredBatch.sum_count]
    congr 2
    apply List.map_congr_left
    exact fun batch hbatch => (AnsweredBatch.count_written (htallied.sound batch hbatch)).symm
  allErrored := by
    have htables : Metrics.total sink.books.metrics.tableErrored = UInt64.ofNat
        ((outcomes batches).map fun outcome =>
          (outcome.tables.map TableOutcome.errored).sum).sum := by
      apply htallied.value_eq_sum hdone .errored rfl rfl rfl
      intro outcome
      simp [Metrics.Reading.errored, Counter.isTableErrored, WriteOutcome.amountTo_postings]
    rw [htables, htallied.errored_eq hdone, ← UInt64.ofNat_add, ← AnsweredBatch.sum_count,
      ← AnsweredBatch.sum_count, ← sum_map_ite, ← List.sum_map_add]
    congr 2
    apply List.map_congr_left
    exact fun batch hbatch => AnsweredBatch.count_errored (htallied.sound batch hbatch)

end Sink.Tallied

/-- The counters of a sink agree with its answers when no posting is due, and a batch that
fails changes nothing but the numbers of batches and of failed batches. -/
theorem Sink.Run.counters_agree [LawfulMonad m] {runner : Runner m σ} {sink : Sink m κ ω}
    {batches : List AnsweredBatch} {due : List (List Posting)}
    (hrun : sink.Run runner batches due) :
    (due.flatten = [] → sink.Agrees batches) ∧
      ∀ (batch : List Record) (cache : WriterCache ω) (world : σ) (e : SinkError),
        (runner.call sink batch cache world).1 = .error e →
          (runner.call sink batch cache world).2 =
            { sink with books := { sink.books with metrics :=
              { sink.books.metrics with
                batches := sink.books.metrics.batches + 1
                fatalBatches := sink.books.metrics.fatalBatches + 1 } } } := by
  refine ⟨hrun.tallied.agrees, ?_⟩
  intro batch cache world e herror
  have hcounts := Sink.counts hrun.tallied.isOpen runner batch cache world
  have hne : batch ≠ [] := by
    intro hnil
    exact nomatch herror.symm.trans (hcounts.sound.empty hnil)
  have hmetrics := hcounts.metrics
  rw [herror, AnsweredBatch.postings, AnsweredBatch.isEmpty,
    List.isEmpty_eq_false_iff.mpr hne] at hmetrics
  have hcleaner := hcounts.cleaner hne
  have hcoordinator := hcounts.coordinator
  have hstill := hcounts.isOpen.trans hrun.tallied.isOpen.symm
  generalize (runner.call sink batch cache world).2 = after at *
  obtain ⟨coordinator, ⟨metrics, cleaner⟩, isOpen⟩ := after
  simp only at hmetrics hcleaner hcoordinator hstill
  subst hmetrics hcleaner hcoordinator hstill
  rfl

/-- The postings that are due can be made. -/
theorem Sink.Run.exists_done {runner : Runner m σ} {sink : Sink m κ ω}
    {batches : List AnsweredBatch} {due : List (List Posting)}
    (hrun : sink.Run runner batches due) :
    ∃ (last : Sink m κ ω) (done : List (List Posting)), last.Run runner batches done ∧
      done.flatten = [] := by
  -- On the number of postings that are due: making one leaves one less.
  induction hlength : due.flatten.length using Nat.strongRecOn generalizing sink due with
  | ind length ih =>
      by_cases hdue : ∃ postings ∈ due, postings ≠ []
      · obtain ⟨postings, hmem, hne⟩ := hdue
        obtain ⟨before, after, rfl⟩ := List.append_of_mem hmem
        obtain ⟨posting, rest, rfl⟩ := List.exists_cons_of_ne_nil hne
        refine ih _ ?_ hrun.posted rfl
        rw [← hlength]
        simp only [List.flatten_append, List.flatten_cons, List.length_append, List.length_cons]
        omega
      · refine ⟨sink, due, hrun, List.flatten_eq_nil_iff.mpr ?_⟩
        intro postings hmem
        by_contra hne
        exact hdue ⟨postings, hmem, hne⟩

namespace JsonLines

/-- A call of a sink with a settled cache follows the plan of its batch. -/
theorem Serves.call {settings : Settings} {sink : FileSink (Timed Machine)}
    (hserves : Serves sink settings) {cache : WriterCache TableWriter}
    (hsettled : Settled settings.spec cache) (session : Session) (host : Timed Machine)
    (batch : List Record) :
    ((Runner.session _).call sink batch cache (session, host)).1 =
        (settings.writeBatch batch session.sourceClosed session.errors host.files).1.mapError
          .write ∧
      Serves ((Runner.session _).call sink batch cache (session, host)).2 settings := by
  let world : World (Timed Machine) := ⟨cache, session, host⟩
  have hends : world.Ends (sink.writeBatch batch) _ :=
    ends_sinkWriteBatch Timed.mirrors_files hserves hsettled batch
  exact ⟨hends.2.2.1, hends.2.1⟩

def lostRecord : Record := { id := "lost", value := .obj [] }

theorem commit_twoPlans_empty : (Settings.byTable.commit twoPlans ({} : Machine)).1 = .ok () := by
  have hnothing {location : Location} (hne : location ≠ []) :
      ({} : Machine).tree.get? location = none := FileTree.get?_empty hne
  obtain ⟨second, tree, hkept, hcommits⟩ := commit_twoPlans (hnothing (by decide))
  obtain ⟨last, hsecond⟩ : ∃ last, (Connection.commitFile "/"
      (Settings.byTable.fileOf "b") [second] : StateM Machine _) { tree } = (.ok (), last) :=
    ⟨_, Connection.commitFile_of_nothing (made_twoPlans { tree } (.inr rfl)) rfl
      (hkept.trans (hnothing (by decide)))⟩
  rw [hcommits, Connection.commitFiles, Connection.bind_run, hsecond]
  rfl

def bareHost : Timed Machine := ⟨{}, fun _ => 0⟩

theorem files_bareHost : bareHost.files = {} := rfl

/-- A sink that writes to the table that a record names, open on a machine without files. -/
theorem exists_opened :
    ∃ (sink : FileSink (Timed Machine)) (cache : WriterCache TableWriter),
      sink.Run (Runner.session _) [] [] ∧ Serves sink Settings.byTable ∧
        Settled Settings.byTable.spec cache := by
  let start : World (Timed Machine) := ⟨{}, {}, bareHost⟩
  have hends : start.Ends (openSink (Timed Machine) configByTable {}) _ :=
    ends_openSink Timed.mirrors_files configByTable {} rfl
  have hfound : Settings.found configByTable (Timed.files start.host) =
      (.ok Settings.byTable, ({} : Machine)) := found_byTable {}
  rw [World.Ends, hfound] at hends
  obtain ⟨-, -, -, hsettled, sink, hopen, hserves⟩ := hends
  have hanswer : ((Runner.session (Timed Machine)).run
      (Sink.openWith configByTable {} provide route {}) (({} : Session), bareHost)).1.1 =
      .ok sink := hopen
  exact ⟨sink, _, .opened hanswer, hserves, hsettled⟩

/-- Two tables are written, an empty batch comes, a batch fails because the pipeline stops at
a record without a table, and one with such a record is committed by a call that overlaps. -/
theorem counters_agree_mixed :
    ∃ (sink : FileSink (Timed Machine)) (batches : List AnsweredBatch)
      (due : List (List Posting)), sink.Run (Runner.session _) batches due ∧ due.flatten = [] ∧
        batches.map AnsweredBatch.batch = [twoRecords, [], [lostRecord], [lostRecord]] ∧
        batches.map AnsweredBatch.failed = [false, false, true, false] ∧
        ((outcomes batches).map WriteOutcome.written).sum = 2 ∧
        ((outcomes batches).map WriteOutcome.errored).sum = 1 ∧ sink.Agrees batches := by
  obtain ⟨sink, cache, hopened, hserves, hsettled⟩ := exists_opened
  let stopped : Session := { errors := { policy := .stopPipeline } }
  obtain ⟨hfirst, hservesFirst⟩ := hserves.call hsettled {} bareHost twoRecords
  obtain ⟨hsecond, hservesSecond⟩ := hservesFirst.call hsettled {} bareHost []
  obtain ⟨hthird, hservesThird⟩ := hservesSecond.call hsettled stopped bareHost [lostRecord]
  obtain ⟨hfourth, -⟩ := hservesThird.call hsettled {} bareHost [lostRecord]
  have htwo := (hopened.called twoRecords cache ({}, bareHost)).called [] cache ({}, bareHost)
  have hthree := htwo.called [lostRecord] cache (stopped, bareHost)
  obtain ⟨last, done, hrun, hdone⟩ :=
    (hthree.ended [lostRecord] cache ({}, bareHost) sink.books.cleaner).exists_done
  rw [(Settings.writeBatch_of_planned planned_twoRecords _).2, files_bareHost,
    commit_twoPlans_empty] at hfirst
  refine ⟨last, _, done, hrun, hdone, rfl, ?_, ?_, ?_, hrun.counters_agree.1 hdone⟩
  · simp only [List.map_append, List.map_cons, List.map_nil, AnsweredBatch.failed, hfirst, hsecond,
      hthird, hfourth]
    rfl
  · simp only [outcomes, List.filterMap_append, List.filterMap_cons, AnsweredBatch.outcome?, hfirst,
      hsecond, hthird, hfourth]
    rfl
  · simp only [outcomes, List.filterMap_append, List.filterMap_cons, AnsweredBatch.outcome?, hfirst,
      hsecond, hthird, hfourth]
    rfl

end JsonLines

end TableRouting
