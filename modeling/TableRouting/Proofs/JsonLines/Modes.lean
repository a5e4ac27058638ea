import TableRouting.Proofs.JsonLines.Counting
import TableRouting.Proofs.Regrouping

/-!
# One row or several rows in a line

With several rows in a line a writer issues the rows of a chunk statement by
statement.  Its lines hold the rows that one row in a line gives, but every chunk is
regrouped by operation and columns: rows of one statement keep their order, and so do
the chunks, while rows of different statements in one chunk may change places.
-/

namespace TableRouting.JsonLines

def TableLine.tagged (line : TableLine) : List Row :=
  line.rows.map fun values => ⟨line.op, line.columns, values⟩

def listed (lines : List TableLine) : List Row := lines.flatMap TableLine.tagged

/-- Whether a row is there after an operation on it. -/
def Row.leaves (present : Bool) (row : Row) : Bool :=
  match row.op with
  | .insert | .upsert => true
  | .update => present
  | .delete => false

/-- How the rows of some pieces are listed when each piece is regrouped, next to how
they are listed one after the other. -/
structure Regroups (pieces : List (List Row)) (single multi : List Row) : Prop where
  single_eq : single = pieces.flatten
  multi_eq : multi = pieces.flatMap (Grouping.regroup Row.key)
  /-- No row is lost, and none is added. -/
  perm : multi.Perm single
  /-- The rows of one statement keep their order. -/
  filter_eq : ∀ key : StatementKey,
    (multi.filter fun row => row.key == key) = single.filter fun row => row.key == key
  /-- Nothing changes just when the rows of every statement stand together. -/
  eq_iff : multi = single ↔ ∀ piece ∈ pieces, Grouping.Together Row.key piece
  /-- Rows whose effects commute where they change places have the same effect. -/
  replay : ∀ {σ : Type} (apply : σ → Row → σ) (state : σ),
    (∀ piece ∈ pieces, ∀ first ∈ piece, ∀ second ∈ piece, first.key ≠ second.key →
      ∀ state, apply (apply state first) second = apply (apply state second) first) →
    multi.foldl apply state = single.foldl apply state

theorem filter_flatMap_regroup (pieces : List (List Row)) (key : StatementKey) :
    ((pieces.flatMap (Grouping.regroup Row.key)).filter fun row => row.key == key) =
      pieces.flatten.filter fun row => row.key == key := by
  induction pieces with
  | nil => rfl
  | cons piece rest ih =>
      rw [List.flatMap_cons, List.flatten_cons, List.filter_append, List.filter_append, ih,
        Grouping.filter_regroup]

theorem flatMap_regroup_perm (pieces : List (List Row)) :
    (pieces.flatMap (Grouping.regroup Row.key)).Perm pieces.flatten := by
  induction pieces with
  | nil => exact List.Perm.refl _
  | cons piece rest ih =>
      rw [List.flatMap_cons, List.flatten_cons]
      exact (Grouping.regroup_perm Row.key piece).append ih

theorem flatMap_regroup_eq_iff (pieces : List (List Row)) :
    pieces.flatMap (Grouping.regroup Row.key) = pieces.flatten ↔
      ∀ piece ∈ pieces, Grouping.Together Row.key piece := by
  induction pieces with
  | nil => simp
  | cons piece rest ih =>
      have hlength : (Grouping.regroup Row.key piece).length = piece.length :=
        (Grouping.regroup_perm Row.key piece).length_eq
      calc
        (piece :: rest).flatMap (Grouping.regroup Row.key) = (piece :: rest).flatten
          ↔ Grouping.regroup Row.key piece = piece ∧
              rest.flatMap (Grouping.regroup Row.key) = rest.flatten := by
            rw [List.flatMap_cons, List.flatten_cons]
            exact List.append_eq_append_iff_of_size_eq_left hlength
        _ ↔ Grouping.Together Row.key piece ∧
              ∀ other ∈ rest, Grouping.Together Row.key other := by
            rw [Grouping.regroup_eq_self_iff, ih]
        _ ↔ ∀ other ∈ piece :: rest, Grouping.Together Row.key other := List.forall_mem_cons.symm

theorem foldl_flatMap_regroup {σ : Type} {pieces : List (List Row)} (apply : σ → Row → σ)
    (state : σ) (hcommutes : ∀ piece ∈ pieces, ∀ first ∈ piece, ∀ second ∈ piece,
      first.key ≠ second.key →
        ∀ state, apply (apply state first) second = apply (apply state second) first) :
    (pieces.flatMap (Grouping.regroup Row.key)).foldl apply state =
      pieces.flatten.foldl apply state := by
  induction pieces generalizing state with
  | nil => rfl
  | cons piece rest ih =>
      rw [List.flatMap_cons, List.flatten_cons, List.foldl_append, List.foldl_append,
        Grouping.foldl_regroup apply state (hcommutes piece List.mem_cons_self)]
      exact ih _ fun other hother => hcommutes other (List.mem_cons_of_mem piece hother)

theorem regroups (pieces : List (List Row)) :
    Regroups pieces pieces.flatten (pieces.flatMap (Grouping.regroup Row.key)) where
  single_eq := rfl
  multi_eq := rfl
  perm := flatMap_regroup_perm pieces
  filter_eq := filter_flatMap_regroup pieces
  eq_iff := flatMap_regroup_eq_iff pieces
  replay := foldl_flatMap_regroup

namespace TableWriter

def oneRow (spec : WriterSpec) : WriterSpec := { spec with mode := .singleRow }

/-- The settings of a writer, with as many rows in a line as a limit allows. -/
def severalRows (spec : WriterSpec) (limit : Option Nat) : WriterSpec :=
  { spec with mode := .multiRow limit }

def chunkedRows (spec : WriterSpec) (limit : Option Nat) (records : List Record) :
    List (List Row) :=
  (chunks (severalRows spec limit) (records.map (Row.ofRecord spec))).map chunkRows

variable {spec : WriterSpec} {records : List Record} {extracted : List Extracted}

/-- Every record gives a row or is dropped. -/
def Extracts (spec : WriterSpec) (records : List Record) : Prop :=
  ∀ record ∈ records, ∃ row, Row.ofRecord spec record = .ok row

/-- The rows of a statement, tagged again. -/
theorem tagged_lineOf (table : String) (key : StatementKey) (rows : List (List Json)) :
    (lineOf spec table (key, rows)).tagged =
      rows.map fun values => ⟨key.op, key.columns, values⟩ := rfl

theorem listed_single (table : String) (rows : List Row) :
    listed ((rows.map fun row => (row.key, [row.values])).map (lineOf spec table)) = rows := by
  induction rows with
  | nil => rfl
  | cons row rest ih =>
      calc
        listed (((row :: rest).map fun row => (row.key, [row.values])).map (lineOf spec table))
          = row :: listed ((rest.map fun row => (row.key, [row.values])).map
              (lineOf spec table)) := rfl
        _ = row :: rest := by rw [ih]

theorem listed_statementsOf (table : String) (rows : List Row) :
    listed ((statementsOf rows).map (lineOf spec table)) = Grouping.regroup Row.key rows := by
  have hkeys : (rows.map fun row => (row.key, row.values)).map Prod.fst = rows.map Row.key := by
    rw [List.map_map]
    rfl
  have htagged : ∀ key : StatementKey,
      (lineOf spec table (key, ((rows.map fun row => (row.key, row.values)).filter
        fun pair => pair.1 == key).map Prod.snd)).tagged =
        rows.filter fun row => row.key == key := by
    intro key
    calc
      _ = (rows.filter fun row => row.key == key).map fun row =>
            (⟨key.op, key.columns, row.values⟩ : Row) := by
          rw [tagged_lineOf, List.filter_map, List.map_map, List.map_map]
          rfl
      _ = (rows.filter fun row => row.key == key).map id := by
          apply List.map_congr_left
          intro row hrow
          rw [← eq_of_beq (List.mem_filter.mp hrow).2]
          rfl
      _ = rows.filter fun row => row.key == key := List.map_id _
  rw [statementsOf, Grouping.group_eq, hkeys, listed, List.map_map, List.flatMap_map,
    Grouping.regroup]
  exact List.flatMap_congr fun key _ => htagged key

theorem listed_statements (table : String) (chunks : List (List ChunkItem)) :
    listed ((chunks.flatMap fun chunk => statementsOf (chunkRows chunk)).map (lineOf spec table)) =
      (chunks.map chunkRows).flatMap (Grouping.regroup Row.key) := by
  induction chunks with
  | nil => rfl
  | cons chunk rest ih =>
      calc
        _ = listed ((statementsOf (chunkRows chunk)).map (lineOf spec table)) ++
              listed ((rest.flatMap fun chunk => statementsOf (chunkRows chunk)).map
                (lineOf spec table)) := by
            rw [List.flatMap_cons, List.map_append, listed, List.flatMap_append]
            rfl
        _ = Grouping.regroup Row.key (chunkRows chunk) ++
              (rest.map chunkRows).flatMap (Grouping.regroup Row.key) := by
            rw [listed_statementsOf, ih]
        _ = _ := rfl

/-- The items of the chunks hold the rows in their order. -/
theorem chunkRows_keptItems (index : Nat) (extracted : List Extracted) :
    chunkRows (keptItems index extracted) = rowsOf extracted := by
  induction extracted generalizing index with
  | nil => rfl
  | cons first rest ih =>
      rcases first with e | _ | row
      · exact ih (index + 1)
      · exact ih (index + 1)
      · exact congrArg (row :: ·) (ih (index + 1))

theorem flatten_map_chunkRows (chunks : List (List ChunkItem)) :
    (chunks.map chunkRows).flatten = chunkRows chunks.flatten := by
  induction chunks with
  | nil => rfl
  | cons chunk rest ih =>
      rw [List.map_cons, List.flatten_cons, List.flatten_cons, ih, chunkRows, chunkRows,
        chunkRows, List.filterMap_append]

theorem flatten_chunkedRows (spec : WriterSpec) (limit : Option Nat) (records : List Record) :
    (chunkedRows spec limit records).flatten = rowsOf (records.map (Row.ofRecord spec)) := by
  rw [chunkedRows, flatten_map_chunkRows, chunks, flatten_cutChunks, List.reverse_nil,
    List.nil_append, chunkRows_keptItems]

theorem mem_of_mem_keptItems {index : Nat} {position : Nat} {error : StoreError}
    (hitem : (position, .error error) ∈ keptItems index extracted) :
    Except.error error ∈ extracted := by
  induction extracted generalizing index with
  | nil => simp [keptItems] at hitem
  | cons first rest ih =>
      rcases first with e | _ | row
      · rcases List.mem_cons.mp hitem with hfirst | hrest
        · obtain rfl := Except.error.inj (Prod.mk.inj hfirst).2
          exact List.mem_cons_self
        · exact List.mem_cons_of_mem _ (ih hrest)
      · exact List.mem_cons_of_mem _ (ih hitem)
      · rcases List.mem_cons.mp hitem with hfirst | hrest
        · simp at hfirst
        · exact List.mem_cons_of_mem _ (ih hrest)

theorem not_error_of_extracts (hextracts : Extracts spec records) (error : StoreError) :
    Except.error error ∉ records.map (Row.ofRecord spec) := by
  intro hmem
  obtain ⟨record, hrecord, herror⟩ := List.mem_map.mp hmem
  obtain ⟨row, hrow⟩ := hextracts record hrecord
  exact nomatch hrow.symm.trans herror

/-- No chunk holds a failure when no record gives one. -/
theorem isClean_of_extracts (hextracts : Extracts spec records) {limit : Option Nat}
    {chunk : List ChunkItem}
    (hchunk : chunk ∈ chunks (severalRows spec limit) (records.map (Row.ofRecord spec))) :
    isClean chunk = true := by
  rw [isClean, Option.isNone_iff_eq_none, firstFailed?, List.findSome?_eq_none_iff]
  intro item hitem
  have hkept : item ∈ keptItems 0 (records.map (Row.ofRecord spec)) := by
    have hall := List.mem_flatten.mpr ⟨chunk, hchunk, hitem⟩
    rwa [chunks, flatten_cutChunks] at hall
  obtain ⟨position, error | row⟩ := item
  · exact absurd (mem_of_mem_keptItems hkept) (not_error_of_extracts hextracts error)
  · rfl

theorem failuresFrom_eq_nil (hnone : ∀ error, Except.error error ∉ extracted) (index : Nat) :
    failuresFrom index extracted = [] := by
  induction extracted generalizing index with
  | nil => rfl
  | cons first rest ih =>
      cases first with
      | error e => exact absurd List.mem_cons_self (hnone e)
      | ok row =>
          exact ih (fun error hmem => hnone error (List.mem_cons_of_mem _ hmem)) (index + 1)

theorem failures_oneRow (hextracts : Extracts spec records) :
    (report (oneRow spec) records).failures = [] :=
  failuresFrom_eq_nil (not_error_of_extracts hextracts) 0

theorem failures_severalRows (hextracts : Extracts spec records) (limit : Option Nat) :
    (report (severalRows spec limit) records).failures = [] := by
  apply List.flatMap_eq_nil_iff.mpr
  intro chunk hchunk
  rw [← List.length_eq_zero_iff, length_chunkFailures,
    if_pos (isClean_of_extracts hextracts hchunk)]

/-- Either mode reports the same on records without a failure. -/
theorem report_severalRows (hextracts : Extracts spec records) (limit : Option Nat) :
    report (severalRows spec limit) records = report (oneRow spec) records := by
  have hone := count_report (oneRow spec) records
  have hseveral := count_report (severalRows spec limit) records
  have hfailures := failures_oneRow hextracts
  have hnone := failures_severalRows hextracts limit
  have hdiscarded : (report (severalRows spec limit) records).discarded =
      (report (oneRow spec) records).discarded := rfl
  rw [hfailures, List.length_nil] at hone
  rw [hnone, List.length_nil] at hseveral
  have hwritten : (report (severalRows spec limit) records).written =
      (report (oneRow spec) records).written := by omega
  calc
    report (severalRows spec limit) records
      = ⟨(report (severalRows spec limit) records).written,
          (report (severalRows spec limit) records).discarded,
          (report (severalRows spec limit) records).failures⟩ := rfl
    _ = ⟨(report (oneRow spec) records).written, (report (oneRow spec) records).discarded,
          (report (oneRow spec) records).failures⟩ := by
        rw [hwritten, hdiscarded, hnone, hfailures]

theorem listed_oneRow (table : String) :
    listed (lines (oneRow spec) table records) = rowsOf (records.map (Row.ofRecord spec)) :=
  listed_single table _

theorem listed_severalRows (hextracts : Extracts spec records) (limit : Option Nat)
    (table : String) :
    listed (lines (severalRows spec limit) table records) =
      (chunkedRows spec limit records).flatMap (Grouping.regroup Row.key) := by
  have hall : (chunks (severalRows spec limit) (records.map (Row.ofRecord spec))).filter isClean =
      chunks (severalRows spec limit) (records.map (Row.ofRecord spec)) :=
    List.filter_eq_self.mpr fun chunk hchunk => isClean_of_extracts hextracts hchunk
  calc
    listed (lines (severalRows spec limit) table records)
      = listed ((((chunks (severalRows spec limit) (records.map (Row.ofRecord spec))).filter
          isClean).flatMap fun chunk => statementsOf (chunkRows chunk)).map
            (lineOf (severalRows spec limit) table)) := rfl
    _ = (chunkedRows spec limit records).flatMap (Grouping.regroup Row.key) := by
        rw [hall, listed_statements, chunkedRows]

/-- The same records written with several rows in a line and with one: the reports are
the same, and the rows are those of the chunks with each chunk regrouped by operation
and columns. -/
theorem write_regroups {single multi : TableWriter} {table : String} {limit : Option Nat}
    (hsingle : single.Fits table (oneRow spec)) (hone : single.closed = false)
    (hmulti : multi.Fits table (severalRows spec limit)) (hseveral : multi.closed = false)
    (hextracts : Extracts spec records) (connection : Connection) :
    ∃ (report : WriteReport) (singleLines multiLines : List TableLine)
        (singleAfter multiAfter : TableWriter),
      single.write connection records =
        (.ok report, singleAfter, connection.appendAll ⟨spec.schema, table⟩ singleLines) ∧
      multi.write connection records =
        (.ok report, multiAfter, connection.appendAll ⟨spec.schema, table⟩ multiLines) ∧
      report.failures = [] ∧
      Regroups (chunkedRows spec limit records) (listed singleLines) (listed multiLines) := by
  obtain ⟨singleAfter, -, -, hsingleWrite⟩ := hsingle.write hone connection records
  obtain ⟨multiAfter, -, -, hmultiWrite⟩ := hmulti.write hseveral connection records
  rw [report_severalRows hextracts] at hmultiWrite
  refine ⟨_, _, _, _, _, hsingleWrite, hmultiWrite, failures_oneRow hextracts, ?_⟩
  rw [listed_oneRow, listed_severalRows hextracts, ← flatten_chunkedRows spec limit]
  exact regroups _

/-- Settings for records that carry the operation of a change. -/
def changeLog : WriterSpec where
  schema := ""
  mappings := []
  mode := .singleRow
  changeLogFormat := .none
  defaultOperation := .insert
  unsupportedAction := .discard
  caseSensitive := false
  maxStatementCache := none

def fresh (spec : WriterSpec) : TableWriter where
  table := "rows"
  spec := spec
  statements := { capacity := spec.maxStatementCache }

theorem fits_fresh (spec : WriterSpec) : (fresh spec).Fits "rows" spec := by
  refine ⟨rfl, rfl, ?_⟩
  intro key statement hkept
  simp [fresh] at hkept

def change (code : String) : Record :=
  ⟨"1", .obj [("id", .str "1")], [(operationHeader, code)]⟩

def insertedAgain : List Record := [change "1", change "2", change "1"]

theorem extracts_insertedAgain : Extracts changeLog insertedAgain := by
  intro record hrecord
  simp only [insertedAgain, List.mem_cons, List.not_mem_nil, or_false] at hrecord
  rcases hrecord with rfl | rfl | rfl <;> exact ⟨_, rfl⟩

theorem write_regroups_insertedAgain :
    ((fresh (oneRow changeLog)).Fits "rows" (oneRow changeLog) ∧
      (fresh (severalRows changeLog none)).Fits "rows" (severalRows changeLog none) ∧
      Extracts changeLog insertedAgain) ∧
    ∃ (report : WriteReport) (singleLines multiLines : List TableLine)
        (singleAfter multiAfter : TableWriter),
      (fresh (oneRow changeLog)).write { root := "" } insertedAgain =
        (.ok report, singleAfter,
          Connection.appendAll { root := "" } ⟨"", "rows"⟩ singleLines) ∧
      (fresh (severalRows changeLog none)).write { root := "" } insertedAgain =
        (.ok report, multiAfter,
          Connection.appendAll { root := "" } ⟨"", "rows"⟩ multiLines) ∧
      report.failures = [] ∧
      Regroups (chunkedRows changeLog none insertedAgain) (listed singleLines)
        (listed multiLines) :=
  ⟨⟨fits_fresh _, fits_fresh _, extracts_insertedAgain⟩,
    write_regroups (fits_fresh _) rfl (fits_fresh _) rfl extracts_insertedAgain { root := "" }⟩

/-- The two modes disagree on a row that comes back: one leaves it, and the other
deletes it after both insertions. -/
theorem listed_ne_insertedAgain :
    ∃ (report : WriteReport) (singleLines multiLines : List TableLine)
        (singleAfter multiAfter : TableWriter),
      (fresh (oneRow changeLog)).write { root := "" } insertedAgain =
        (.ok report, singleAfter,
          Connection.appendAll { root := "" } ⟨"", "rows"⟩ singleLines) ∧
      (fresh (severalRows changeLog none)).write { root := "" } insertedAgain =
        (.ok report, multiAfter,
          Connection.appendAll { root := "" } ⟨"", "rows"⟩ multiLines) ∧
      report.failures = [] ∧
      (listed singleLines).map Row.op = [.insert, .delete, .insert] ∧
      (listed multiLines).map Row.op = [.insert, .insert, .delete] ∧
      (listed singleLines).foldl Row.leaves false = true ∧
      (listed multiLines).foldl Row.leaves false = false ∧
      listed multiLines ≠ listed singleLines := by
  obtain ⟨singleAfter, -, -, hsingle⟩ := (fits_fresh (oneRow changeLog)).write rfl
    { root := "" } insertedAgain
  obtain ⟨multiAfter, -, -, hmulti⟩ := (fits_fresh (severalRows changeLog none)).write rfl
    { root := "" } insertedAgain
  rw [report_severalRows extracts_insertedAgain] at hmulti
  refine ⟨_, _, _, _, _, hsingle, hmulti, failures_oneRow extracts_insertedAgain, ?_⟩
  rw [listed_oneRow, listed_severalRows extracts_insertedAgain]
  refine ⟨rfl, rfl, rfl, rfl, ?_⟩
  intro hsame
  have hops := congrArg (List.map Row.op) hsame
  exact absurd hops (by decide)

end TableWriter

end TableRouting.JsonLines
