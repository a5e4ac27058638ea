import TableRouting.Proofs.Metrics.ReadBack
import TableRouting.Proofs.Metrics.Tally

/-!
# What a sink exports

At any moment of its use a sink exports one sample for each of its counters, and one for
each table for which something was counted.  The text is read back line by line if none of
these tables has a line break in its name, and as a whole it tells the counters apart from
all others.  Closing the sink changes nothing about it.
-/

namespace TableRouting

/-! ## Tables that are listed -/

/-- What is counted for each table. -/
inductive TableCount where
  | written
  | errored
  deriving DecidableEq

namespace TableCount

def counters : TableCount → Metrics → Std.TreeMap String UInt64
  | written, metrics => metrics.tableWritten
  | errored, metrics => metrics.tableErrored

def counter : TableCount → String → Counter
  | written, table => .tableWritten table
  | errored, table => .tableErrored table

def records : TableCount → TableOutcome → Nat
  | written, entry => entry.written
  | errored, entry => entry.errored

end TableCount

/-- Some posting to the counter of a table is not nothing. -/
def Posting.Counts (postings : List Posting) (count : TableCount) (table : String) : Prop :=
  ∃ posting ∈ postings, posting.counter = count.counter table ∧ UInt64.ofNat posting.amount ≠ 0

namespace Metrics

variable {counters : Std.TreeMap String UInt64} {count : TableCount} {table : String}

theorem mem_addTo {other : String} {amount : UInt64} :
    table ∈ addTo counters other amount ↔ table ∈ counters ∨ other = table ∧ amount ≠ 0 := by
  rw [addTo]
  split
  · rename_i hzero
    simp [hzero]
  · rename_i hnonzero
    rw [Std.TreeMap.mem_insert, Std.LawfulEqCmp.compare_eq_iff_eq, or_comm, and_iff_left hnonzero]

theorem mem_post (metrics : Metrics) (posting : Posting) :
    table ∈ count.counters (metrics.post posting) ↔ table ∈ count.counters metrics ∨
      posting.counter = count.counter table ∧ UInt64.ofNat posting.amount ≠ 0 := by
  obtain ⟨posted, amount⟩ := posting
  cases count <;> cases posted <;>
    simp [TableCount.counters, TableCount.counter, post, addTableWritten, addTableErrored,
      mem_addTo]

/-- A table is listed after some postings if it was listed before or one of them counts. -/
theorem mem_postAll (metrics : Metrics) (postings : List Posting) :
    table ∈ count.counters (metrics.postAll postings) ↔
      table ∈ count.counters metrics ∨ Posting.Counts postings count table := by
  induction postings generalizing metrics with
  | nil => simp [postAll, Posting.Counts]
  | cons posting rest ih =>
      have hrest : metrics.postAll (posting :: rest) = (metrics.post posting).postAll rest := rfl
      rw [hrest, ih, mem_post, or_assoc]
      simp only [Posting.Counts, List.exists_mem_cons_iff]

theorem not_mem_empty (count : TableCount) (table : String) :
    table ∉ count.counters ({} : Metrics) := by
  cases count <;> exact Std.TreeMap.not_mem_emptyc

end Metrics

namespace Posting

variable {postings others : List Posting} {count : TableCount} {table : String}

theorem Counts.mono (hcounts : Counts postings count table)
    (hsub : ∀ posting ∈ postings, posting ∈ others) : Counts others count table := by
  obtain ⟨posting, hmem, hposting⟩ := hcounts
  exact ⟨posting, hsub posting hmem, hposting⟩

/-- What counts adds up to something. -/
theorem Counts.amountTo_pos (hcounts : Counts postings count table) :
    0 < amountTo (Metrics.Reading.one (count.counter table)).counters postings := by
  obtain ⟨posting, hmem, hcounter, hamount⟩ := hcounts
  obtain ⟨before, after, rfl⟩ := List.append_of_mem hmem
  have hpos : 0 < posting.amount := by
    apply Nat.pos_of_ne_zero
    intro hzero
    exact hamount (congrArg UInt64.ofNat hzero)
  have hone : (Metrics.Reading.one (count.counter table)).counters posting.counter = true :=
    decide_eq_true hcounter
  rw [amountTo_append, amountTo_cons, if_pos hone]
  omega

theorem counts_append :
    Counts (postings ++ others) count table ↔
      Counts postings count table ∨ Counts others count table := by
  simp only [Counts, List.mem_append, or_and_right, exists_or]

theorem counts_flatMap {α : Type} (made : α → List Posting) (sources : List α) :
    Counts (sources.flatMap made) count table ↔
      ∃ source ∈ sources, Counts (made source) count table := by
  simp only [Counts, List.mem_flatMap]
  constructor
  · rintro ⟨posting, ⟨source, hsource, hmem⟩, hposting⟩
    exact ⟨source, hsource, posting, hmem, hposting⟩
  · rintro ⟨source, hsource, posting, hmem, hposting⟩
    exact ⟨posting, ⟨source, hsource, hmem⟩, hposting⟩

theorem counts_entry (entry : TableOutcome) :
    Counts entry.postings count table ↔
      entry.table = table ∧ UInt64.ofNat (count.records entry) ≠ 0 := by
  cases count <;>
    simp [Counts, TableOutcome.postings, TableCount.counter, TableCount.records]

theorem counts_outcome (outcome : WriteOutcome) :
    Counts outcome.postings count table ↔ ∃ entry ∈ outcome.tables,
      entry.table = table ∧ UInt64.ofNat (count.records entry) ≠ 0 := by
  have htotals : ¬ Counts [⟨.batches, 1⟩, ⟨.written, outcome.written⟩,
      ⟨.errored, outcome.errored⟩, ⟨.discarded, outcome.discarded⟩] count table := by
    cases count <;> simp [Counts, TableCount.counter]
  simp only [WriteOutcome.postings, counts_append, htotals, false_or, counts_flatMap,
    counts_entry]

variable {m : Type → Type} {κ ω : Type} {coordinator : Coordinator m κ ω}

/-- The postings for a batch count for the tables of its outcome. -/
theorem counts_batch {batch : AnsweredBatch} (hsound : batch.Sound coordinator) :
    Counts batch.postings count table ↔
      ∃ outcome, batch.outcome? = some outcome ∧ Counts outcome.postings count table := by
  obtain ⟨records, answer⟩ := batch
  rw [AnsweredBatch.postings, AnsweredBatch.isEmpty, AnsweredBatch.outcome?]
  split
  · rename_i hnil
    obtain rfl : answer = .ok {} := hsound.empty (List.isEmpty_iff.mp hnil)
    have hempty : ¬ Counts [⟨.batches, 1⟩, ⟨.emptyBatches, 1⟩] count table := by
      cases count <;> simp [Counts, TableCount.counter]
    simp [hempty, counts_outcome]
  · cases answer with
    | ok outcome => simp
    | error e => cases count <;> simp [Counts, TableCount.counter]

theorem counts_batches {batches : List AnsweredBatch}
    (hsound : ∀ batch ∈ batches, batch.Sound coordinator) :
    Counts (batches.flatMap AnsweredBatch.postings) count table ↔
      ∃ outcome ∈ outcomes batches, ∃ entry ∈ outcome.tables,
        entry.table = table ∧ UInt64.ofNat (count.records entry) ≠ 0 := by
  rw [counts_flatMap]
  constructor
  · rintro ⟨batch, hbatch, hcounts⟩
    obtain ⟨outcome, houtcome, hcounts⟩ := (counts_batch (hsound batch hbatch)).mp hcounts
    exact ⟨outcome, List.mem_filterMap.mpr ⟨batch, hbatch, houtcome⟩,
      (counts_outcome outcome).mp hcounts⟩
  · rintro ⟨outcome, hmem, hentry⟩
    obtain ⟨batch, hbatch, houtcome⟩ := List.mem_filterMap.mp hmem
    exact ⟨batch, hbatch, (counts_batch (hsound batch hbatch)).mpr
      ⟨outcome, houtcome, (counts_outcome outcome).mpr hentry⟩⟩

end Posting

/-! ## What is exported -/

/-- What the exported text of a sink says at any moment of its use. -/
structure Sink.Exports {m : Type → Type} [Monad m] {σ κ ω : Type} (runner : Runner m σ)
    (sink : Sink m κ ω) (batches : List AnsweredBatch) (due : List (List Posting)) : Prop where
  /-- The text is that of the counters, with those of the cache. -/
  text : ∀ (cache : WriterCache ω) (world : σ),
    (runner.run (sink.metricsText cache) world).1.1 =
      sink.books.metrics.exportText cache.statistics
  /-- Closing the sink changes no counter. -/
  closed : ∀ (cache : WriterCache ω) (world : σ),
    (runner.run (sink.close cache) world).1.1.2.books = sink.books
  /-- A table is listed when a posting for it was made that is not nothing. -/
  listed : ∃ postings, (postings ++ due.flatten).Perm (batches.flatMap AnsweredBatch.postings) ∧
    ∀ (count : TableCount) (table : String), table ∈ count.counters sink.books.metrics ↔
      Posting.Counts postings count table
  /-- When no posting is due, these are the tables of the outcomes. -/
  settled : due.flatten = [] → ∀ (count : TableCount) (table : String),
    table ∈ count.counters sink.books.metrics ↔
      ∃ outcome ∈ outcomes batches, ∃ entry ∈ outcome.tables,
        entry.table = table ∧ UInt64.ofNat (count.records entry) ≠ 0
  /-- A table that is listed has a count that is not zero, unless it has gone round. -/
  nonzero : ∀ (count : TableCount) (table : String), table ∈ count.counters sink.books.metrics →
    sink.books.metrics.shown (count.counter table) = 0 →
      UInt64.size ≤ Posting.amountTo (Metrics.Reading.one (count.counter table)).counters
        (batches.flatMap AnsweredBatch.postings)
  /-- Without line breaks in the names of these tables, the text is read back. -/
  read : (∀ (count : TableCount), Metrics.Unbroken (count.counters sink.books.metrics)) →
    ∀ cache, Metrics.readSamples (sink.books.metrics.exportText cache) =
      some (sink.books.metrics.samples cache)
  /-- A line break cuts the sample of a table, and the text is not read back. -/
  broken : ∀ (count : TableCount), ¬ Metrics.Unbroken (count.counters sink.books.metrics) →
    ∀ cache, Metrics.readSamples (sink.books.metrics.exportText cache) = none
  /-- The text as a whole tells the counters apart from all others. -/
  distinct : ∀ (other : Metrics) (cache otherCache : CacheStatistics),
    sink.books.metrics.exportText cache = other.exportText otherCache →
      Metrics.Alike sink.books.metrics other cache otherCache
  /-- The lines of the tables alone do so for the counters of the tables. -/
  tables : ∀ other : Metrics,
    (Metrics.textOf sink.books.metrics.writtenLines = Metrics.textOf other.writtenLines →
      sink.books.metrics.tableWritten.toList = other.tableWritten.toList) ∧
    (Metrics.textOf sink.books.metrics.erroredLines = Metrics.textOf other.erroredLines →
      sink.books.metrics.tableErrored.toList = other.tableErrored.toList)

variable {m : Type → Type} [Monad m] {σ κ ω : Type}

theorem Sink.run_metricsText (runner : Runner m σ) (sink : Sink m κ ω) (cache : WriterCache ω)
    (world : σ) : (runner.run (sink.metricsText cache) world).1.1 =
      sink.books.metrics.exportText cache.statistics := by
  change (runner.run (pure (cache, cache) >>= fun answer : WriterCache ω × WriterCache ω =>
    pure (sink.books.metrics.exportText answer.1.statistics, answer.2)) world).1.1 = _
  rw [runner.run_bind, runner.run_pure, runner.run_pure]

theorem Sink.close_books (runner : Runner m σ) (sink : Sink m κ ω) (cache : WriterCache ω)
    (world : σ) : (runner.run (sink.close cache) world).1.1.2.books = sink.books := by
  have hcloses : (Trail.blank runner).LeavesIn sink.close
      fun answer _ => answer.2.books = sink.books := by
    rw [Sink.close]
    split
    · apply (Trail.leavesIn_blank runner _).bind
      intro writersReleased _ _
      apply (Trail.leavesIn_blank runner _).bind
      intro ended _ _
      cases ended with
      | error e =>
          apply (Trail.leavesIn_blank runner _).bind
          exact fun errors _ _ => Trail.leavesIn_pure rfl
      | ok closed =>
          apply (Trail.leavesIn_blank runner _).bind
          exact fun errors _ _ => Trail.leavesIn_pure rfl
    · exact Trail.leavesIn_pure rfl
  obtain ⟨_, -, hresult⟩ := hcloses cache world
  exact hresult

/-- A counter that shows nothing though something was posted to it has gone round. -/
theorem Metrics.size_le_of_shown {postings : List Posting} {count : TableCount} {table : String}
    (hcounts : Posting.Counts postings count table)
    (hzero : (({} : Metrics).postAll postings).shown (count.counter table) = 0) :
    UInt64.size ≤ Posting.amountTo (Reading.one (count.counter table)).counters postings := by
  have hvalue := (Reading.one (count.counter table)).value_postAll {} postings
  rw [Reading.value_empty, zero_add] at hvalue
  have hround := congrArg UInt64.toNat (hvalue.symm.trans hzero)
  rw [UInt64.toNat_ofNat', UInt64.toNat_zero] at hround
  exact Nat.le_of_dvd hcounts.amountTo_pos (Nat.dvd_of_mod_eq_zero hround)

/-- A sink exports what it has counted at every moment of its use. -/
theorem Sink.Run.exports [LawfulMonad m] {runner : Runner m σ} {sink : Sink m κ ω}
    {batches : List AnsweredBatch} {due : List (List Posting)}
    (hrun : sink.Run runner batches due) : sink.Exports runner batches due := by
  obtain ⟨-, hsound, postings, hmetrics, hperm⟩ := hrun.tallied
  have hlisted (count : TableCount) (table : String) :
      table ∈ count.counters sink.books.metrics ↔ Posting.Counts postings count table := by
    rw [hmetrics, Metrics.mem_postAll]
    exact or_iff_right (Metrics.not_mem_empty count table)
  refine {
    text := sink.run_metricsText runner
    closed := sink.close_books runner
    listed := ⟨postings, hperm, hlisted⟩
    settled := ?_
    nonzero := ?_
    read := ?_
    broken := ?_
    distinct := fun other cache otherCache => Metrics.exportText_inj
    tables := fun other =>
      ⟨Metrics.tableLines_inj Metrics.named_written, Metrics.tableLines_inj Metrics.named_errored⟩ }
  · intro hdone count table
    rw [hdone, List.append_nil] at hperm
    rw [hlisted, ← Posting.counts_batches hsound]
    exact ⟨(·.mono fun posting => hperm.mem_iff.mp), (·.mono fun posting => hperm.mem_iff.mpr)⟩
  · intro count table hmem hzero
    -- What is due adds to what the batches post, and is not needed for the bound.
    have hcounts := (hlisted count table).mp hmem
    rw [hmetrics] at hzero
    calc
      UInt64.size ≤ Posting.amountTo _ postings := Metrics.size_le_of_shown hcounts hzero
      _ ≤ Posting.amountTo _ (postings ++ due.flatten) := by
        rw [Posting.amountTo_append]
        exact Nat.le_add_right _ _
      _ = _ := Posting.amountTo_perm hperm
  · exact fun hplain => Metrics.readSamples_exportText (hplain .written) (hplain .errored)
  · intro count hbreak
    apply Metrics.readSamples_exportText_broken
    rintro ⟨hwritten, herrored⟩
    cases count with
    | written => exact hbreak hwritten
    | errored => exact hbreak herrored

namespace JsonLines

theorem planned_brokenName : Settings.byTable.planned? [recordFor "a\nb"] false {} =
    some [planFor "a\nb"] := by
  have hresolved : Settings.byTable.resolved [recordFor "a\nb"] =
      [("a\nb", recordFor "a\nb")] := rfl
  have hrouted : ({} : ErrorLog).routeEach (Settings.byTable.unresolved [recordFor "a\nb"]) =
      (.ok (), {}) := rfl
  rw [Settings.planned?, hrouted, Settings.groups, hresolved, Grouping.group_eq]
  rfl

theorem commit_brokenName :
    (Settings.byTable.commit [planFor "a\nb"] ({} : Machine)).1 = .ok () := by
  obtain ⟨line, hline⟩ := lines_planFor "a\nb"
  have hpending : Settings.byTable.pending [planFor "a\nb"] =
      [(Settings.byTable.fileOf "a\nb", line.render)] := by
    simp only [Settings.pending, List.flatMap_cons, List.flatMap_nil, hline]
    rfl
  have hwaiting : Connection.byFile [(Settings.byTable.fileOf "a\nb", line.render)] =
      [(Settings.byTable.fileOf "a\nb", [line.render])] := by
    rw [Connection.byFile, Grouping.group_eq]
    exact List.mergeSort_singleton _
  have hmade : ({} : Machine).tree.createDirAll ({} : Machine).workingDirectory
      ((Path.parent? (Path.join "/" (Settings.byTable.fileOf "a\nb").path)).getD "") =
      (.ok (), ({} : Machine).tree) := rfl
  have hnothing : ({} : Machine).tree.get? ["a\nb.jsonl"] = none :=
    FileTree.get?_empty (by decide)
  have hwritten : (Connection.commitFile "/" (Settings.byTable.fileOf "a\nb") [line.render] :
      StateM Machine _) {} = (.ok (), { ({} : Machine) with
        tree := ({} : Machine).tree.set ["a\nb.jsonl"]
          (.file (Connection.linesText [line.render])) }) :=
    Connection.commitFile_of_nothing hmade rfl hnothing
  have hroot : Settings.byTable.root = "/" := rfl
  rw [Settings.commit, hpending, hwaiting, hroot, Connection.commitFiles, Connection.bind_run,
    hwritten]
  rfl

/-- A record names a table with a line break.  The counter of this table is exported on two
lines, neither of which is a sample. -/
theorem exports_brokenName :
    ∃ (sink : FileSink (Timed Machine)) (batches : List AnsweredBatch),
      sink.Run (Runner.session _) batches [] ∧
        batches.map AnsweredBatch.batch = [[recordFor "a\nb"]] ∧
        "a\nb" ∈ sink.books.metrics.tableWritten ∧
        (∀ cache, Metrics.readSamples (sink.books.metrics.exportText cache) = none) ∧
        sink.Exports (Runner.session _) batches [] := by
  obtain ⟨sink, cache, hopened, hserves, hsettled⟩ := exists_opened
  obtain ⟨hcall, -⟩ := hserves.call hsettled {} bareHost [recordFor "a\nb"]
  rw [(Settings.writeBatch_of_planned planned_brokenName _).2, files_bareHost,
    commit_brokenName] at hcall
  have hrun := hopened.called [recordFor "a\nb"] cache ({}, bareHost)
  have hexports := hrun.exports
  have hlisted : "a\nb" ∈ TableCount.written.counters
      ((Runner.session _).call sink [recordFor "a\nb"] cache ({}, bareHost)).2.books.metrics := by
    rw [hexports.settled rfl]
    simp only [outcomes, List.nil_append, List.filterMap_cons, AnsweredBatch.outcome?, hcall]
    exact ⟨_, List.mem_singleton_self _, (planFor "a\nb").outcome, List.mem_singleton_self _, rfl,
      by decide⟩
  refine ⟨_, _, hrun, rfl, hlisted, ?_, hexports⟩
  apply hexports.broken .written
  intro hplain
  exact hplain _ hlisted (by decide)

end JsonLines

end TableRouting
