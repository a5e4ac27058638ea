import Mathlib.Data.List.Nodup
import TableRouting.Proofs.JsonLines.History
import TableRouting.Proofs.JsonLines.Modes

/-!
# Statements kept prepared

A writer keeps the statements that it prepared last.  The queue lists them in the order
in which they were prepared, each once, so the statement that goes first is the one that
was prepared longest ago.  How many are kept shows neither in the lines nor in the
reports, and a writer that is released keeps none.
-/

namespace TableRouting.JsonLines

namespace StatementCache

variable {cache : StatementCache} {params : List String → List String} {capacity : Option Nat}
  {prepared : List StatementKey} {key : StatementKey}

/-- The last of some keys, as many as a capacity allows: at least one, and without a
capacity all of them. -/
def latest (capacity : Option Nat) (keys : List StatementKey) : List StatementKey :=
  match capacity with
  | none => keys
  | some most => keys.drop (keys.length - max most 1)

def prepareAll (params : List String → List String) (cache : StatementCache)
    (keys : List StatementKey) : StatementCache :=
  keys.foldl (fun cache key => (cache.prepare key params).2) cache

/-- The statements among those that a cache is asked for that it does not keep, so that
they are prepared anew. -/
def preparedAnew (params : List String → List String) (cache : StatementCache) :
    List StatementKey → List StatementKey
  | [] => []
  | key :: rest =>
    let later := preparedAnew params (cache.prepare key params).2 rest
    if key ∈ cache.statements then later else key :: later

/-- A cache keeps the statements that were prepared last. -/
structure KeepsLatest (cache : StatementCache) (params : List String → List String)
    (capacity : Option Nat) (prepared : List StatementKey) : Prop where
  capacity_eq : cache.capacity = capacity
  /-- The queue is the end of the list of all preparations. -/
  queue_eq : cache.queue = latest capacity prepared
  /-- The queue holds no key twice. -/
  nodup : cache.queue.Nodup
  /-- It holds the keys of the statements that are kept, and no others. -/
  mem_queue : ∀ key, key ∈ cache.queue ↔ key ∈ cache.statements
  /-- A statement that is kept is what preparing it again would give. -/
  faithful : cache.Faithful params

theorem keepsLatest_new (params : List String → List String) (capacity : Option Nat) :
    ({ capacity } : StatementCache).KeepsLatest params capacity [] where
  capacity_eq := rfl
  queue_eq := by cases capacity <;> simp [latest]
  nodup := List.nodup_nil
  mem_queue key := by simp
  faithful key statement hkept := by simp at hkept

/-- The map has as many statements as the queue has keys. -/
theorem KeepsLatest.size_eq (hkeeps : cache.KeepsLatest params capacity prepared) :
    cache.size = cache.queue.length := by
  have hperm : cache.statements.keys.Perm cache.queue := by
    rw [List.perm_ext_iff_of_nodup Std.HashMap.nodup_keys hkeeps.nodup]
    intro key
    rw [Std.HashMap.mem_keys, hkeeps.mem_queue]
  rw [size, ← Std.HashMap.length_keys, hperm.length_eq]

theorem KeepsLatest.size_le (hkeeps : cache.KeepsLatest params capacity prepared) {most : Nat}
    (hcapacity : capacity = some most) : cache.size ≤ max 1 most := by
  rw [hkeeps.size_eq, hkeeps.queue_eq, hcapacity, latest, List.length_drop]
  omega

/-- How many statements go to make room for one more. -/
def excess (cache : StatementCache) : Nat :=
  match cache.capacity with
  | none => 0
  | some most => cache.queue.length - (most - 1)

theorem capacity_makeRoom (most : Nat) (queue : List StatementKey) :
    (makeRoom most cache queue).capacity = cache.capacity := by
  induction queue generalizing cache with
  | nil => rfl
  | cons oldest rest ih =>
      rw [makeRoom]
      split
      · exact ih
      · rfl

/-- Room is made at the front of the queue. -/
theorem queue_makeRoom (most : Nat) (queue : List StatementKey) :
    (makeRoom most cache queue).queue = queue.drop (queue.length - (most - 1)) := by
  induction queue generalizing cache with
  | nil => simp [makeRoom]
  | cons oldest rest ih =>
      rw [makeRoom]
      split
      · rename_i hfull
        rw [List.length_cons] at hfull
        have hlength : (oldest :: rest).length - (most - 1) = rest.length - (most - 1) + 1 := by
          rw [List.length_cons]
          omega
        rw [ih, hlength, List.drop_succ_cons]
      · rename_i hroom
        rw [List.length_cons] at hroom
        have hlength : (oldest :: rest).length - (most - 1) = 0 := by
          rw [List.length_cons]
          omega
        rw [hlength, List.drop_zero]

/-- The statements of the keys that go are dropped, and no others. -/
theorem mem_makeRoom (most : Nat) (queue : List StatementKey) :
    key ∈ (makeRoom most cache queue).statements ↔
      key ∈ cache.statements ∧ key ∉ queue.take (queue.length - (most - 1)) := by
  induction queue generalizing cache with
  | nil => simp [makeRoom]
  | cons oldest rest ih =>
      rw [makeRoom]
      split
      · rename_i hfull
        rw [List.length_cons] at hfull
        have hlength : (oldest :: rest).length - (most - 1) = rest.length - (most - 1) + 1 := by
          rw [List.length_cons]
          omega
        rw [ih, hlength, List.take_succ_cons, Std.HashMap.mem_erase, List.mem_cons, not_or,
          beq_eq_false_iff_ne, ne_comm, and_comm (a := key ≠ oldest), and_assoc]
      · rename_i hroom
        rw [List.length_cons] at hroom
        have hlength : (oldest :: rest).length - (most - 1) = 0 := by
          rw [List.length_cons]
          omega
        rw [hlength, List.take_zero]
        simp

theorem prepare_of_mem (hkept : key ∈ cache.statements) : (cache.prepare key params).2 = cache := by
  rw [prepare, Std.HashMap.getElem?_eq_some_getElem hkept]

/-- A statement that is not kept goes to the end of the queue, and room is made at the
front. -/
theorem prepare_of_not_mem (params : List String → List String) (hnew : key ∉ cache.statements) :
    (cache.prepare key params).2.capacity = cache.capacity ∧
    (cache.prepare key params).2.queue = cache.queue.drop cache.excess ++ [key] ∧
    ∀ other, other ∈ (cache.prepare key params).2.statements ↔
      other = key ∨ other ∈ cache.statements ∧ other ∉ cache.queue.take cache.excess := by
  rw [prepare, Std.HashMap.getElem?_eq_none hnew, excess]
  simp only [Std.HashMap.mem_insert, beq_iff_eq]
  cases hcapacity : cache.capacity with
  | none =>
      simp only
      refine ⟨hcapacity, rfl, ?_⟩
      simp [eq_comm]
  | some most =>
      simp only [queue_makeRoom, mem_makeRoom, capacity_makeRoom, hcapacity]
      simp [eq_comm]

/-- What makes room was prepared longest ago. -/
theorem KeepsLatest.drop_excess (hkeeps : cache.KeepsLatest params capacity prepared)
    (key : StatementKey) :
    cache.queue.drop cache.excess ++ [key] = latest capacity (prepared ++ [key]) := by
  rw [excess, hkeeps.capacity_eq, hkeeps.queue_eq]
  cases capacity with
  | none => rfl
  | some most =>
      have hdropped : prepared.length - max most 1 +
          ((prepared.drop (prepared.length - max most 1)).length - (most - 1)) =
            (prepared ++ [key]).length - max most 1 := by
        rw [List.length_drop, List.length_append, List.length_singleton]
        omega
      have hwithin : (prepared ++ [key]).length - max most 1 ≤ prepared.length := by
        rw [List.length_append, List.length_singleton]
        omega
      simp only [latest]
      rw [List.drop_drop, hdropped, List.drop_append_of_le_length hwithin]

/-- One more preparation. -/
theorem KeepsLatest.prepare (hkeeps : cache.KeepsLatest params capacity prepared)
    (hnew : key ∉ cache.statements) :
    (cache.prepare key params).2.KeepsLatest params capacity (prepared ++ [key]) := by
  obtain ⟨hcapacity, hqueue, hstatements⟩ := prepare_of_not_mem params hnew
  have hfresh : key ∉ cache.queue := by rwa [hkeeps.mem_queue]
  have hsplit : (cache.queue.take cache.excess ++ cache.queue.drop cache.excess).Nodup := by
    rw [List.take_append_drop]
    exact hkeeps.nodup
  obtain ⟨-, hstay, hapart⟩ := List.nodup_append.mp hsplit
  have hmem : ∀ other, other ∈ cache.queue.drop cache.excess ↔
      other ∈ cache.statements ∧ other ∉ cache.queue.take cache.excess := by
    intro other
    rw [← hkeeps.mem_queue, ← List.take_append_drop cache.excess cache.queue, List.mem_append,
      List.take_append_drop]
    constructor
    · intro hdrop
      exact ⟨.inr hdrop, fun htake => hapart other htake other hdrop rfl⟩
    · rintro ⟨htake | hdrop, hnot⟩
      · exact absurd htake hnot
      · exact hdrop
  exact {
    capacity_eq := hcapacity.trans hkeeps.capacity_eq
    queue_eq := hqueue.trans (hkeeps.drop_excess key)
    nodup := by
      rw [hqueue, List.nodup_append]
      refine ⟨hstay, List.nodup_singleton key, ?_⟩
      rintro other hother last hlast rfl
      rw [List.mem_singleton.mp hlast] at hother
      exact hfresh (List.mem_of_mem_drop hother)
    mem_queue := by
      intro other
      rw [hqueue, hstatements, List.mem_append, List.mem_singleton, hmem, or_comm]
    faithful := (hkeeps.faithful.prepare key).2 }

/-- The preparations of a cache follow on those that it was asked for before. -/
theorem KeepsLatest.prepareAll (hkeeps : cache.KeepsLatest params capacity prepared)
    (keys : List StatementKey) :
    (cache.prepareAll params keys).KeepsLatest params capacity
      (prepared ++ preparedAnew params cache keys) := by
  induction keys generalizing cache prepared with
  | nil => rwa [preparedAnew, List.append_nil]
  | cons key rest ih =>
      rw [StatementCache.prepareAll, List.foldl_cons, preparedAnew]
      split
      · rename_i hkept
        rw [prepare_of_mem hkept]
        exact ih hkeeps
      · rename_i hnew
        rw [List.append_cons]
        exact ih (hkeeps.prepare hnew)

end StatementCache

namespace TableWriter

open StatementCache

variable {writer : TableWriter} {table : String} {spec : WriterSpec}

def keysFor (spec : WriterSpec) (records : List Record) : List StatementKey :=
  (statementsFor spec (records.map (Row.ofRecord spec))).map Prod.fst

/-- The keys of the statements that calls ask for, up to the release of the writer. -/
def requested (spec : WriterSpec) : List WriterCall → List StatementKey
  | [] => []
  | .write _ records :: rest => keysFor spec records ++ requested spec rest
  | .close :: _ => []

/-- The cache of a writer after some calls, when a further write has issued some of its
statements. -/
def cacheAt (writer : TableWriter) (calls : List WriterCall) (connection : Connection)
    (issued : List (StatementKey × List (List Json))) : StatementCache :=
  ((writer.afterAll calls).issueAll connection issued).1.statements

/-- A writer keeps the statements that it prepared last, at every moment: between the
calls on it, and within a write when some of its statements were issued. -/
structure KeepsLatestThroughout (writer : TableWriter) (spec : WriterSpec) : Prop where
  /-- Until the release the cache holds the last statements of the history, as many as the
  capacity says, and one if it says none. -/
  keeps : ∀ (calls : List WriterCall) (connection : Connection) (records : List Record)
      (issued : List (StatementKey × List (List Json))),
    calls.any WriterCall.releases = false →
      issued <+: statementsFor spec (records.map (Row.ofRecord spec)) →
        (writer.cacheAt calls connection issued).KeepsLatest (paramValues spec)
          spec.maxStatementCache
          (preparedAnew (paramValues spec) writer.statements
            (requested spec calls ++ issued.map Prod.fst)) ∧
        (writer.cacheAt calls connection issued).size =
          (writer.cacheAt calls connection issued).queue.length ∧
        ∀ most, spec.maxStatementCache = some most →
          (writer.cacheAt calls connection issued).size ≤ max 1 most
  /-- The release leaves nothing, and nothing comes after it. -/
  released : ∀ calls : List WriterCall, calls.any WriterCall.releases = true →
    (writer.afterAll calls).statements.queue = [] ∧ (writer.afterAll calls).statements.size = 0

theorem statements_issueAll (writer : TableWriter) (connection : Connection)
    (statements : List (StatementKey × List (List Json))) :
    (writer.issueAll connection statements).1.statements =
      writer.statements.prepareAll (paramValues writer.spec) (statements.map Prod.fst) := by
  induction statements generalizing writer connection with
  | nil => rfl
  | cons statement rest ih =>
      rw [issueAll, ih]
      rfl

theorem Fits.statements_write (hfits : writer.Fits table spec) (hopen : writer.closed = false)
    (connection : Connection) (records : List Record) :
    (writer.after (.write connection records)).statements =
      writer.statements.prepareAll (paramValues spec) (keysFor spec records) := by
  simp only [TableWriter.after, TableWriter.write, hopen, Bool.false_eq_true, if_false,
    writeOpen_eq, statements_issueAll, hfits.spec_eq]
  rfl

theorem Fits.statements_afterAll (hfits : writer.Fits table spec) (hopen : writer.closed = false)
    {calls : List WriterCall} (hkept : calls.any WriterCall.releases = false) :
    (writer.afterAll calls).statements =
      writer.statements.prepareAll (paramValues spec) (requested spec calls) := by
  induction calls generalizing writer with
  | nil => rfl
  | cons call rest ih =>
      rw [List.any_cons, Bool.or_eq_false_iff] at hkept
      cases call with
      | close => exact nomatch hkept.1
      | write connection records =>
          obtain ⟨hafter, hclosed⟩ := hfits.after (.write connection records)
          rw [hopen] at hclosed
          rw [TableWriter.afterAll, List.foldl_cons, requested, prepareAll, List.foldl_append]
          refine (ih hafter hclosed hkept.2).trans ?_
          rw [hfits.statements_write hopen]
          rfl

/-- A released writer keeps no statement. -/
structure Emptied (writer : TableWriter) : Prop where
  closed : writer.closed = true
  queue : writer.statements.queue = []
  size : writer.statements.size = 0

theorem emptied_close (hopen : writer.closed = false) : writer.close.Emptied := by
  rw [TableWriter.close, hopen]
  exact ⟨rfl, rfl, rfl⟩

theorem Emptied.after (hempty : writer.Emptied) (call : WriterCall) :
    writer.after call = writer := by
  cases call with
  | write connection records => rw [TableWriter.after, TableWriter.write, if_pos hempty.closed]
  | close => rw [TableWriter.after, TableWriter.close, if_pos hempty.closed]

theorem Emptied.afterAll (hempty : writer.Emptied) (calls : List WriterCall) :
    writer.afterAll calls = writer := by
  induction calls with
  | nil => rfl
  | cons call rest ih => rwa [TableWriter.afterAll, List.foldl_cons, hempty.after call]

theorem Fits.emptied_afterAll (hfits : writer.Fits table spec) (hopen : writer.closed = false)
    {calls : List WriterCall} (hreleased : calls.any WriterCall.releases = true) :
    (writer.afterAll calls).Emptied := by
  induction calls generalizing writer with
  | nil => exact nomatch hreleased
  | cons call rest ih =>
      rw [afterAll_cons]
      cases call with
      | close =>
          have hempty := emptied_close hopen
          rwa [TableWriter.after, hempty.afterAll rest]
      | write connection records =>
          obtain ⟨hafter, hclosed⟩ := hfits.after (.write connection records)
          rw [hopen] at hclosed
          exact ih hafter hclosed hreleased

/-- The cache was asked for the statements of the history, one after the other. -/
theorem Fits.cacheAt_eq (hfits : writer.Fits table spec) (hopen : writer.closed = false)
    {calls : List WriterCall} (hkept : calls.any WriterCall.releases = false)
    (connection : Connection) (issued : List (StatementKey × List (List Json))) :
    writer.cacheAt calls connection issued =
      writer.statements.prepareAll (paramValues spec)
        (requested spec calls ++ issued.map Prod.fst) := by
  rw [cacheAt, statements_issueAll, (hfits.afterAll calls).1.spec_eq,
    hfits.statements_afterAll hopen hkept, prepareAll, prepareAll, prepareAll, List.foldl_append]

theorem keepsLatest_of_create (hcreate : create table spec = .ok writer) :
    writer.statements.KeepsLatest (paramValues spec) spec.maxStatementCache [] := by
  rw [eq_of_create hcreate]
  exact keepsLatest_new _ _

theorem keepsLatestThroughout_of_create (hcreate : create table spec = .ok writer) :
    writer.KeepsLatestThroughout spec := by
  obtain ⟨hfits, hopen⟩ := fits_of_create hcreate
  constructor
  · intro calls connection records issued hkept _
    rw [hfits.cacheAt_eq hopen hkept]
    have hkeeps := (keepsLatest_of_create hcreate).prepareAll
      (requested spec calls ++ issued.map Prod.fst)
    rw [List.nil_append] at hkeeps
    exact ⟨hkeeps, hkeeps.size_eq, fun most hcapacity => hkeeps.size_le hcapacity⟩
  · intro calls hreleased
    have hempty := hfits.emptied_afterAll hopen hreleased
    exact ⟨hempty.queue, hempty.size⟩

section

variable (spec) (capacity : Option Nat)

/-- The capacity plays no part in the cuts of a write. -/
theorem cutChunks_capacity (chunk : List ChunkItem) (bound : Nat) (items : List ChunkItem) :
    cutChunks { spec with maxStatementCache := capacity } chunk bound items =
      cutChunks spec chunk bound items := by
  induction items generalizing chunk bound with
  | nil => rfl
  | cons item rest ih =>
      simp only [cutChunks, ih]
      rfl

theorem report_capacity (records : List Record) :
    report { spec with maxStatementCache := capacity } records = report spec records := by
  simp only [report, reportOn, chunks, cutChunks_capacity]
  rfl

theorem lines_capacity (records : List Record) :
    lines { spec with maxStatementCache := capacity } table records =
      lines spec table records := by
  simp only [lines, statementsFor, chunks, cutChunks_capacity]
  rfl

theorem answersFor_capacity (released : Bool) (calls : List WriterCall) :
    answersFor { spec with maxStatementCache := capacity } table released calls =
      answersFor spec table released calls := by
  induction calls generalizing released with
  | nil => rfl
  | cons call rest ih =>
      cases call with
      | write connection records =>
          rw [answersFor, answersFor, ih, answerFor, answerFor, report_capacity, lines_capacity]
      | close => exact ih true

end

/-- Two writers whose settings differ in the capacity at most answer the same and add the
same lines, and each keeps the statements that it prepared last. -/
theorem answers_eq_and_keepsLatest {first second : TableWriter} {capacity : Option Nat}
    (hfirst : create table spec = .ok first)
    (hsecond : create table { spec with maxStatementCache := capacity } = .ok second) :
    (∀ calls : List WriterCall, first.answers calls = second.answers calls) ∧
      first.KeepsLatestThroughout spec ∧
      second.KeepsLatestThroughout { spec with maxStatementCache := capacity } := by
  refine ⟨?_, keepsLatestThroughout_of_create hfirst, keepsLatestThroughout_of_create hsecond⟩
  intro calls
  obtain ⟨hfits, hopen⟩ := fits_of_create hfirst
  obtain ⟨hfits', hopen'⟩ := fits_of_create hsecond
  rw [hfits.answers, hfits'.answers, hopen, hopen', answersFor_capacity spec capacity]

def narrow : WriterSpec := { changeLog with maxStatementCache := some 0 }

theorem answers_eq_and_keepsLatest_narrow :
    (create "rows" narrow = .ok (fresh narrow) ∧
      create "rows" { narrow with maxStatementCache := some 2 } =
        .ok (fresh { narrow with maxStatementCache := some 2 })) ∧
    (∀ calls : List WriterCall,
      (fresh narrow).answers calls =
        (fresh { narrow with maxStatementCache := some 2 }).answers calls) ∧
      (fresh narrow).KeepsLatestThroughout narrow ∧
      (fresh { narrow with maxStatementCache := some 2 }).KeepsLatestThroughout
        { narrow with maxStatementCache := some 2 } :=
  ⟨⟨rfl, rfl⟩, answers_eq_and_keepsLatest (show create "rows" narrow = _ from rfl)
    (show create "rows" { narrow with maxStatementCache := some 2 } = _ from rfl)⟩

end TableWriter

end TableRouting.JsonLines
