import Mathlib.Data.List.Flatten
import TableRouting.Proofs.JsonLines.Extraction
import TableRouting.Proofs.JsonLines.Modes

/-!
# Chunks of rows

With several rows in a line a writer cuts the records of a group into chunks.  The
parameters of a chunk add up to no more than the limit, unless the chunk has a single
record, and so do those of every line that is cut from it.  A chunk with a record that
fails is rejected as a whole; the rows of all other chunks are issued, those of one
statement in the order of their records.
-/

namespace TableRouting.JsonLines

variable {spec : WriterSpec}

def TableLine.key (line : TableLine) : StatementKey := ⟨line.op, line.columns⟩

/-- A line binds no more parameters than a limit, or it has a single row. -/
def TableLine.Within (limit : Option Nat) (line : TableLine) : Prop :=
  (∀ most, limit = some most → line.rows.length * line.columns.length ≤ most) ∨
    line.rows.length = 1

/-- The rows of one statement among lines, line by line. -/
theorem flatMap_rows_of_key (lines : List TableLine) (key : StatementKey) :
    (lines.filter fun line => line.key == key).flatMap TableLine.rows =
      ((listed lines).filter fun row => row.key == key).map Row.values := by
  induction lines with
  | nil => rfl
  | cons line rest ih =>
      have htagged : (line.tagged.filter fun row => row.key == key).map Row.values =
          if line.key == key then line.rows else [] := by
        rw [TableLine.tagged, List.filter_map, List.map_map]
        change List.map id (line.rows.filter fun _ => line.key == key) = _
        rw [List.map_id]
        split
        · rename_i hkey
          exact List.filter_eq_self.mpr fun _ _ => hkey
        · rename_i hkey
          exact List.filter_eq_nil_iff.mpr fun _ _ => hkey
      have hlisted : listed (line :: rest) = line.tagged ++ listed rest := rfl
      rw [hlisted, List.filter_append, List.map_append, htagged, ← ih, List.filter_cons]
      split
      · rw [List.flatMap_cons]
      · rw [List.nil_append]

/-- A row has a value for every column. -/
theorem Row.length_values {record : Record} {row : Row}
    (hrow : Row.ofRecord spec record = .ok (some row)) :
    row.values.length = row.columns.length :=
  (Row.ofRecord_eq_some_iff.mp hrow).2.length_eq

namespace TableWriter

variable {extracted : List Extracted} {records : List Record}

def width (spec : WriterSpec) (chunk : List ChunkItem) : Nat :=
  (chunk.map (itemWidth spec)).sum

@[simp] theorem width_cons (item : ChunkItem) (chunk : List ChunkItem) :
    width spec (item :: chunk) = itemWidth spec item + width spec chunk := by
  rw [width, width, List.map_cons, List.sum_cons]

theorem width_reverse (chunk : List ChunkItem) : width spec chunk.reverse = width spec chunk := by
  rw [width, width, List.map_reverse, List.sum_reverse]

theorem one_le_itemWidth (item : ChunkItem) : 1 ≤ itemWidth spec item := by
  rw [itemWidth]
  split <;> exact Nat.le_max_right _ _

theorem eq_nil_of_width {chunk : List ChunkItem} (hwidth : width spec chunk = 0) : chunk = [] := by
  cases chunk with
  | nil => rfl
  | cons item rest =>
      have hitem : 1 ≤ itemWidth spec item := one_le_itemWidth item
      rw [width_cons] at hwidth
      omega

/-- A chunk keeps to the limit, unless it has a single item. -/
theorem width_le_of_mem_cutChunks {limit : Nat} (hmode : spec.mode = .multiRow (some limit))
    {chunk items piece : List ChunkItem} (hfits : width spec chunk ≤ limit ∨ chunk.length ≤ 1)
    (hpiece : piece ∈ cutChunks spec chunk (width spec chunk) items) :
    width spec piece ≤ limit ∨ piece.length ≤ 1 := by
  induction items generalizing chunk with
  | nil =>
      rw [cutChunks] at hpiece
      split at hpiece
      · exact absurd hpiece List.not_mem_nil
      · rw [List.mem_singleton.mp hpiece, width_reverse, List.length_reverse]
        exact hfits
  | cons item rest ih =>
      rw [cutChunks] at hpiece
      split at hpiece
      · rename_i hadmits
        rw [Nat.add_comm, ← width_cons] at hpiece
        refine ih ?_ hpiece
        rw [hmode] at hadmits
        -- A chunk admits anything when it is empty, and else what there is room for.
        rcases Bool.or_eq_true_iff.mp hadmits with hempty | hroom
        · right
          rw [eq_nil_of_width (eq_of_beq hempty)]
          exact Nat.le_refl 1
        · left
          rw [width_cons, Nat.add_comm]
          exact of_decide_eq_true hroom
      · rcases List.mem_cons.mp hpiece with rfl | hlater
        · rw [width_reverse, List.length_reverse]
          exact hfits
        · have hsingle : width spec [item] = itemWidth spec item := by simp [width]
          rw [← hsingle] at hlater
          refine ih ?_ hlater
          right
          exact Nat.le_refl 1

/-- An item of a chunk is what the record at its index gives. -/
theorem mem_keptItems {start index : Nat} {given : Except StoreError Row} :
    (index, given) ∈ keptItems start extracted ↔
      ∃ offset, index = start + offset ∧ extracted[offset]? = some (given.map some) := by
  induction extracted generalizing start with
  | nil => simp [keptItems]
  | cons first rest ih =>
      have hlater : (∃ offset, index = start + 1 + offset ∧
            rest[offset]? = some (given.map some)) ↔
          ∃ offset, index = start + (offset + 1) ∧
            (first :: rest)[offset + 1]? = some (given.map some) := by
        simp only [List.getElem?_cons_succ]
        constructor <;> rintro ⟨offset, rfl, hrest⟩ <;> exact ⟨offset, by omega, hrest⟩
      have hsplit : (∃ offset, index = start + offset ∧
            (first :: rest)[offset]? = some (given.map some)) ↔
          (index = start ∧ first = given.map some) ∨
            (index, given) ∈ keptItems (start + 1) rest := by
        rw [ih, hlater]
        constructor
        · rintro ⟨_ | offset, hindex, hgiven⟩
          · exact .inl ⟨hindex, Option.some.inj hgiven⟩
          · exact .inr ⟨offset, hindex, hgiven⟩
        · rintro (⟨hindex, rfl⟩ | ⟨offset, hindex, hgiven⟩)
          · exact ⟨0, hindex, rfl⟩
          · exact ⟨offset + 1, hindex, hgiven⟩
      rw [hsplit]
      rcases first with e | _ | row <;> cases given <;>
        simp [keptItems, Except.map, eq_comm]

/-- The items of the chunks are those of the records that are not dropped. -/
theorem flatten_chunks (spec : WriterSpec) (extracted : List Extracted) :
    (chunks spec extracted).flatten = keptItems 0 extracted := by
  rw [chunks, flatten_cutChunks, List.reverse_nil, List.nil_append]

theorem pairwise_keptItems (start : Nat) (extracted : List Extracted) :
    ((keptItems start extracted).map Prod.fst).Pairwise (· < ·) := by
  induction extracted generalizing start with
  | nil => exact List.Pairwise.nil
  | cons first rest ih =>
      have hbelow : ∀ index ∈ (keptItems (start + 1) rest).map Prod.fst, start < index := by
        intro index hindex
        obtain ⟨⟨index, given⟩, hitem, rfl⟩ := List.mem_map.mp hindex
        obtain ⟨offset, hoffset, -⟩ := mem_keptItems.mp hitem
        simp only [hoffset]
        omega
      rcases first with e | _ | row
      · exact List.pairwise_cons.mpr ⟨hbelow, ih (start + 1)⟩
      · exact ih (start + 1)
      · exact List.pairwise_cons.mpr ⟨hbelow, ih (start + 1)⟩

theorem pairwise_chunks (spec : WriterSpec) (extracted : List Extracted) :
    ((chunks spec extracted).flatten.map Prod.fst).Pairwise (· < ·) := by
  rw [flatten_chunks]
  exact pairwise_keptItems 0 extracted

/-- A chunk that is not clean has a record that failed. -/
theorem isClean_eq_false_iff {chunk : List ChunkItem} :
    isClean chunk = false ↔ ∃ index error, (index, .error error) ∈ chunk := by
  rw [isClean, Option.isNone_eq_false_iff, firstFailed?, List.findSome?_isSome_iff]
  constructor
  · rintro ⟨⟨index, error | row⟩, hitem, hsome⟩
    · exact ⟨index, error, hitem⟩
    · exact absurd hsome Bool.false_ne_true
  · rintro ⟨index, error, hitem⟩
    exact ⟨_, hitem, rfl⟩

/-- A chunk reports all of its items, or none. -/
theorem map_index_chunkFailures (chunk : List ChunkItem) :
    (chunkFailures chunk).map RecordFailure.index =
      if isClean chunk then [] else chunk.map Prod.fst := by
  rw [chunkFailures, isClean]
  cases firstFailed? chunk with
  | none => rfl
  | some failed =>
      rw [List.map_map]
      apply List.map_congr_left
      rintro ⟨index, error | row⟩ - <;> rfl

/-- The items that are reported are those of the chunks that are not clean. -/
theorem map_index_failures (pieces : List (List ChunkItem)) :
    (pieces.flatMap chunkFailures).map RecordFailure.index =
      (pieces.filter fun chunk => !isClean chunk).flatten.map Prod.fst := by
  induction pieces with
  | nil => rfl
  | cons chunk rest ih =>
      rw [List.flatMap_cons, List.map_append, ih, map_index_chunkFailures, List.filter_cons]
      cases isClean chunk with
      | true => rfl
      | false => exact List.map_append.symm

/-- With distinct indices, the items that are not reported are those of the clean chunks. -/
theorem filter_unreported {pieces : List (List ChunkItem)}
    (hdistinct : (pieces.flatten.map Prod.fst).Nodup) :
    (pieces.flatten.filter fun item =>
        item.1 ∉ (pieces.filter fun chunk => !isClean chunk).flatten.map Prod.fst) =
      (pieces.filter isClean).flatten := by
  induction pieces with
  | nil => rfl
  | cons chunk rest ih =>
      rw [List.flatten_cons, List.map_append, List.nodup_append] at hdistinct
      obtain ⟨-, hrest, hdisjoint⟩ := hdistinct
      rw [List.flatten_cons, List.filter_append]
      cases hclean : isClean chunk with
      | true =>
          have hkept : (chunk.filter fun item => item.1 ∉
              (rest.filter fun chunk => !isClean chunk).flatten.map Prod.fst) = chunk := by
            apply List.filter_eq_self.mpr
            intro item hitem
            apply decide_eq_true
            intro hreported
            -- The item that is reported in place of this one stands in a later chunk.
            obtain ⟨other, hother, hindex⟩ := List.mem_map.mp hreported
            have hlater := List.mem_map_of_mem (f := Prod.fst)
              (List.filter_sublist.flatten.mem hother)
            rw [hindex] at hlater
            exact hdisjoint _ (List.mem_map_of_mem hitem) _ hlater rfl
          simp only [List.filter_cons, hclean, Bool.not_true, Bool.false_eq_true, if_false, if_true]
          rw [hkept, ih hrest, List.flatten_cons]
      | false =>
          simp only [List.filter_cons, hclean, Bool.not_false, Bool.false_eq_true, if_false,
            if_true, List.flatten_cons, List.map_append]
          have hreported : (chunk.filter fun item => item.1 ∉ chunk.map Prod.fst ++
              (rest.filter fun chunk => !isClean chunk).flatten.map Prod.fst) = [] := by
            apply List.filter_eq_nil_iff.mpr
            intro item hitem hout
            exact of_decide_eq_true hout (List.mem_append_left _ (List.mem_map_of_mem hitem))
          have hlater : (rest.flatten.filter fun item => item.1 ∉ chunk.map Prod.fst ++
              (rest.filter fun chunk => !isClean chunk).flatten.map Prod.fst) =
              rest.flatten.filter fun item => item.1 ∉
                (rest.filter fun chunk => !isClean chunk).flatten.map Prod.fst := by
            apply List.filter_congr
            intro item hitem
            have hout : item.1 ∉ chunk.map Prod.fst := fun hin =>
              hdisjoint _ hin _ (List.mem_map_of_mem hitem) rfl
            simp only [List.mem_append, hout, false_or]
          rw [hreported, hlater, ih hrest, List.nil_append]

def rowsBut (failed : List Nat) (extracted : List Extracted) : List Row :=
  rowsOf ((extracted.zipIdx.filter fun indexed => indexed.2 ∉ failed).map Prod.fst)

theorem chunkRows_filter_keptItems (failed : List Nat) (start : Nat) (extracted : List Extracted) :
    chunkRows ((keptItems start extracted).filter fun item => item.1 ∉ failed) =
      rowsOf (((extracted.zipIdx start).filter fun indexed => indexed.2 ∉ failed).map
        Prod.fst) := by
  induction extracted generalizing start with
  | nil => rfl
  | cons first rest ih =>
      have hrest := ih (start + 1)
      rw [List.zipIdx_cons, List.filter_cons]
      by_cases hfailed : start ∈ failed
      · rcases first with e | _ | row <;> simpa [keptItems, hfailed] using hrest
      · rcases first with e | _ | row <;>
          simpa [keptItems, hfailed, chunkRows, rowsOf] using hrest

/-- The rows of the clean chunks are those of the records that are not reported. -/
theorem rows_clean (spec : WriterSpec) (extracted : List Extracted) :
    chunkRows ((chunks spec extracted).filter isClean).flatten =
      rowsBut (((chunks spec extracted).flatMap chunkFailures).map RecordFailure.index)
        extracted := by
  have hdistinct : ((chunks spec extracted).flatten.map Prod.fst).Nodup :=
    (pairwise_chunks spec extracted).imp Nat.ne_of_lt
  rw [map_index_failures, ← filter_unreported hdistinct, flatten_chunks]
  exact chunkRows_filter_keptItems _ 0 extracted

theorem length_rows_clean (pieces : List (List ChunkItem)) :
    (chunkRows (pieces.filter isClean).flatten).length =
      ((pieces.filter isClean).map List.length).sum := by
  rw [← flatten_map_chunkRows, List.length_flatten, List.map_map]
  congr 1
  apply List.map_congr_left
  intro chunk hchunk
  exact length_chunkRows (List.mem_filter.mp hchunk).2

/-- The rows of one statement take up no more of a chunk than its width. -/
theorem mul_le_width {key : StatementKey} {chunk : List ChunkItem}
    (hvalues : ∀ row ∈ chunkRows chunk, row.values.length = row.columns.length) :
    ((chunkRows chunk).filter fun row => row.key == key).length * key.columns.length ≤
      width spec chunk := by
  induction chunk with
  | nil => exact Nat.le_of_eq (Nat.zero_mul _)
  | cons item rest ih =>
      rw [width_cons]
      obtain ⟨index, error | row⟩ := item
      · exact Nat.le_trans (ih hvalues) (Nat.le_add_left _ _)
      · have hrows : chunkRows ((index, .ok row) :: rest) = row :: chunkRows rest := rfl
        rw [hrows] at hvalues ⊢
        obtain ⟨hrow, hrest⟩ := List.forall_mem_cons.mp hvalues
        have hwidth : row.values.length ≤ itemWidth spec (index, .ok row) := Nat.le_max_left _ _
        rw [List.filter_cons]
        split
        · rename_i hkey
          have hcolumns : row.values.length = key.columns.length := by
            rw [hrow, ← eq_of_beq hkey]
            rfl
          rw [List.length_cons, Nat.succ_mul, Nat.add_comm, ← hcolumns]
          rw [← hcolumns] at ih
          exact Nat.add_le_add hwidth (ih hrest)
        · exact Nat.le_trans (ih hrest) (Nat.le_add_left _ _)

theorem length_chunkRows_le (chunk : List ChunkItem) : (chunkRows chunk).length ≤ chunk.length :=
  List.length_filterMap_le _ _

theorem mem_chunkRows {chunk : List ChunkItem} {row : Row} :
    row ∈ chunkRows chunk ↔ ∃ index, (index, .ok row) ∈ chunk := by
  rw [chunkRows, List.mem_filterMap]
  constructor
  · rintro ⟨⟨index, error | given⟩, hitem, hrow⟩
    · cases hrow
    · obtain rfl := Option.some.inj hrow
      exact ⟨index, hitem⟩
  · rintro ⟨index, hitem⟩
    exact ⟨_, hitem, rfl⟩

/-- An item stands in a chunk just when its record gives it. -/
theorem mem_chunks {index : Nat} {given : Except StoreError Row} :
    (∃ chunk ∈ chunks spec extracted, (index, given) ∈ chunk) ↔
      extracted[index]? = some (given.map some) := by
  rw [← List.mem_flatten, flatten_chunks, mem_keptItems]
  simp

theorem length_values_of_mem_chunks {chunk : List ChunkItem}
    (hchunk : chunk ∈ chunks spec (records.map (Row.ofRecord spec))) {row : Row}
    (hrow : row ∈ chunkRows chunk) : row.values.length = row.columns.length := by
  obtain ⟨index, hitem⟩ := mem_chunkRows.mp hrow
  have hgiven := List.mem_of_getElem? (mem_chunks.mp ⟨chunk, hchunk, hitem⟩)
  obtain ⟨record, -, hrecord⟩ := List.mem_map.mp hgiven
  exact Row.length_values hrecord

/-- What a writer with several rows in a line makes of records, given what they give. -/
structure Packs (spec : WriterSpec) (limit : Option Nat) (extracted : List Extracted)
    (report : WriteReport) (lines : List TableLine) : Prop where
  /-- No line is overfilled. -/
  within : ∀ line ∈ lines, line.Within limit
  /-- The rows of a statement are those of the records that are not reported, in their order. -/
  rows : ∀ key : StatementKey,
    (lines.filter fun line => line.key == key).flatMap TableLine.rows =
      ((rowsBut (report.failures.map RecordFailure.index) extracted).filter
        fun row => row.key == key).map Row.values
  written : report.written =
    (rowsBut (report.failures.map RecordFailure.index) extracted).length
  discarded : report.discarded = droppedCount extracted
  total : report.written + report.discarded + report.failures.length = extracted.length
  increasing : (report.failures.map RecordFailure.index).Pairwise (· < ·)
  inRange : ∀ failure ∈ report.failures, failure.index < extracted.length
  /-- A record that fails is reported with its own error. -/
  own : ∀ index error, extracted[index]? = some (.error error) →
    ⟨index, error⟩ ∈ report.failures
  /-- The chunks hold the records that are not dropped, in their order. -/
  parts : (chunks spec extracted).flatten = keptItems 0 extracted
  /-- A record that gives a row is reported just when its chunk has a record that fails. -/
  shared : ∀ index row, extracted[index]? = some (.ok (some row)) →
    ((∃ failure ∈ report.failures, failure.index = index) ↔
      ∃ chunk ∈ chunks spec extracted, (index, .ok row) ∈ chunk ∧
        ∃ other error, (other, .error error) ∈ chunk ∧
          extracted[other]? = some (.error error))
  /-- A record that is dropped is not reported. -/
  dropped : ∀ index, extracted[index]? = some (.ok none) →
    ∀ failure ∈ report.failures, failure.index ≠ index

/-- A line is cut from a clean chunk, as the statement for the rows of one kind. -/
theorem mem_lines {limit : Option Nat} (hmode : spec.mode = .multiRow limit) {table : String}
    {line : TableLine} (hline : line ∈ lines spec table records) :
    ∃ chunk ∈ chunks spec (records.map (Row.ofRecord spec)),
      line.rows = ((chunkRows chunk).filter fun row => row.key == line.key).map Row.values := by
  obtain ⟨⟨key, rows⟩, hstatement, rfl⟩ := List.mem_map.mp hline
  simp only [statementsFor, hmode] at hstatement
  obtain ⟨chunk, hclean, hgroup⟩ := List.mem_flatMap.mp hstatement
  obtain ⟨-, rfl⟩ := Grouping.mem_group.mp hgroup
  refine ⟨chunk, (List.mem_filter.mp hclean).1, ?_⟩
  rw [List.filter_map, List.map_map]
  rfl

theorem within_of_mem_lines {limit : Option Nat} (hmode : spec.mode = .multiRow limit)
    {table : String} {line : TableLine} (hline : line ∈ lines spec table records) :
    line.Within limit := by
  obtain ⟨chunk, hchunk, hrows⟩ := mem_lines hmode hline
  cases limit with
  | none => exact .inl fun most hmost => nomatch hmost
  | some most =>
      have hnone : width spec [] ≤ most ∨ ([] : List ChunkItem).length ≤ 1 :=
        .inl (Nat.zero_le most)
      rcases width_le_of_mem_cutChunks hmode hnone hchunk with hwidth | hsingle
      · left
        intro limit hlimit
        obtain rfl := Option.some.inj hlimit
        calc
          line.rows.length * line.columns.length
            = ((chunkRows chunk).filter fun row => row.key == line.key).length *
                line.key.columns.length := by
              rw [hrows, List.length_map]
              rfl
          _ ≤ width spec chunk := mul_le_width fun _ => length_values_of_mem_chunks hchunk
          _ ≤ most := hwidth
      · right
        have hpos : 0 < line.rows.length := List.length_pos_iff.mpr (rows_ne_nil hline)
        have hle : line.rows.length ≤ chunk.length := by
          rw [hrows, List.length_map]
          exact Nat.le_trans (List.length_filter_le _ _) (length_chunkRows_le chunk)
        omega

theorem listed_lines {limit : Option Nat} (hmode : spec.mode = .multiRow limit) (table : String)
    (key : StatementKey) :
    ((listed (lines spec table records)).filter fun row => row.key == key) =
      (chunkRows ((chunks spec (records.map (Row.ofRecord spec))).filter isClean).flatten).filter
        fun row => row.key == key := by
  simp only [lines, statementsFor, hmode]
  rw [listed_statements, filter_flatMap_regroup, flatten_map_chunkRows]

theorem failures_report {limit : Option Nat} (hmode : spec.mode = .multiRow limit) :
    (report spec records).failures =
      (chunks spec (records.map (Row.ofRecord spec))).flatMap chunkFailures := by
  simp only [report, reportOn, hmode]

theorem written_report {limit : Option Nat} (hmode : spec.mode = .multiRow limit) :
    (report spec records).written =
      (((chunks spec (records.map (Row.ofRecord spec))).filter isClean).map List.length).sum := by
  simp only [report, reportOn, hmode]

/-- The items that are reported are those of a chunk with a record that fails. -/
theorem exists_failure_iff {pieces : List (List ChunkItem)} {index : Nat} :
    (∃ failure ∈ pieces.flatMap chunkFailures, failure.index = index) ↔
      ∃ chunk ∈ pieces, index ∈ chunk.map Prod.fst ∧
        ∃ other error, (other, .error error) ∈ chunk := by
  rw [← List.mem_map (f := RecordFailure.index), map_index_failures, List.mem_map]
  simp only [List.mem_flatten, List.mem_filter, Bool.not_eq_true', isClean_eq_false_iff]
  constructor
  · rintro ⟨item, ⟨chunk, ⟨hchunk, hfailed⟩, hitem⟩, rfl⟩
    exact ⟨chunk, hchunk, List.mem_map_of_mem hitem, hfailed⟩
  · rintro ⟨chunk, hchunk, hindex, hfailed⟩
    obtain ⟨item, hitem, rfl⟩ := List.mem_map.mp hindex
    exact ⟨item, ⟨chunk, ⟨hchunk, hfailed⟩, hitem⟩, rfl⟩

/-- A failed item is reported with its own error. -/
theorem mem_chunkFailures_of_error {chunk : List ChunkItem} {index : Nat} {error : StoreError}
    (hitem : (index, .error error) ∈ chunk) : ⟨index, error⟩ ∈ chunkFailures chunk := by
  have hfailed : isClean chunk = false := isClean_eq_false_iff.mpr ⟨index, error, hitem⟩
  rw [isClean] at hfailed
  obtain ⟨first, hfirst⟩ := Option.isSome_iff_exists.mp (Option.isNone_eq_false_iff.mp hfailed)
  rw [chunkFailures, hfirst]
  exact List.mem_map_of_mem hitem

theorem packs {limit : Option Nat} (hmode : spec.mode = .multiRow limit) (table : String)
    (records : List Record) :
    Packs spec limit (records.map (Row.ofRecord spec)) (report spec records)
      (lines spec table records) where
  within line hline := within_of_mem_lines hmode hline
  rows key := by
    rw [flatMap_rows_of_key, listed_lines hmode, failures_report hmode, rows_clean]
  written := by
    rw [failures_report hmode, ← rows_clean, length_rows_clean, written_report hmode]
  discarded := by
    simp only [report, reportOn, hmode]
  total := by rw [count_report, List.length_map]
  increasing := by
    rw [failures_report hmode, map_index_failures]
    exact (pairwise_chunks spec _).sublist (List.filter_sublist.flatten.map Prod.fst)
  inRange failure hfailure := by
    rw [List.length_map]
    exact index_lt_of_mem_report hfailure
  own index error herror := by
    have hgiven : (records.map (Row.ofRecord spec))[index]? =
        some ((Except.error error : Except StoreError Row).map some) := herror
    obtain ⟨chunk, hchunk, hitem⟩ := mem_chunks.mpr hgiven
    rw [failures_report hmode]
    exact List.mem_flatMap.mpr ⟨chunk, hchunk, mem_chunkFailures_of_error hitem⟩
  parts := flatten_chunks spec _
  shared index row hrow := by
    rw [failures_report hmode, exists_failure_iff]
    constructor
    · rintro ⟨chunk, hchunk, hindex, other, error, hfailed⟩
      obtain ⟨⟨index, given⟩, hitem, rfl⟩ := List.mem_map.mp hindex
      have hgiven := Option.some.inj ((mem_chunks.mp ⟨chunk, hchunk, hitem⟩).symm.trans hrow)
      obtain rfl : given = .ok row := by
        cases given with
        | error e => cases hgiven
        | ok other => rw [Option.some.inj (Except.ok.inj hgiven)]
      exact ⟨chunk, hchunk, hitem, other, error, hfailed, mem_chunks.mp ⟨chunk, hchunk, hfailed⟩⟩
    · rintro ⟨chunk, hchunk, hitem, other, error, hfailed, -⟩
      exact ⟨chunk, hchunk, List.mem_map_of_mem hitem, other, error, hfailed⟩
  dropped index hnone failure hfailure hindex := by
    rw [failures_report hmode] at hfailure
    obtain ⟨chunk, hchunk, hreported, -⟩ := exists_failure_iff.mp ⟨failure, hfailure, hindex⟩
    obtain ⟨⟨index, given⟩, hitem, rfl⟩ := List.mem_map.mp hreported
    have hgiven := Option.some.inj ((mem_chunks.mp ⟨chunk, hchunk, hitem⟩).symm.trans hnone)
    cases given with
    | error e => cases hgiven
    | ok row => cases Except.ok.inj hgiven

/-- An open writer with several rows in a line loses, repeats and overfills nothing. -/
theorem write_packs {writer : TableWriter} {table : String} {limit : Option Nat}
    (hfits : writer.Fits table spec) (hopen : writer.closed = false)
    (hmode : spec.mode = .multiRow limit) (connection : Connection) (records : List Record) :
    ∃ (report : WriteReport) (lines : List TableLine) (after : TableWriter),
      writer.write connection records =
        (.ok report, after, connection.appendAll ⟨spec.schema, table⟩ lines) ∧
      after.Fits table spec ∧ after.closed = false ∧
      Packs spec limit (records.map (Row.ofRecord spec)) report lines := by
  obtain ⟨after, hafter, hstill, hwrite⟩ := hfits.write hopen connection records
  exact ⟨_, _, after, hwrite, hafter, hstill, packs hmode table records⟩

/-- A change of a row with the given columns. -/
def wide (code : String) (columns : List String) : Record :=
  ⟨"1", .obj (columns.map fun column => (column, .str "x")), [(operationHeader, code)]⟩

/-- Rows of several widths, one of them wider than four parameters and one without columns;
a value that is no row, after a row that shares its chunk; and a change that is dropped. -/
def mixedWidths : List Record :=
  [wide "1" ["a", "b"], wide "1" ["a", "b"], wide "2" ["a"], wide "1" [], wide "9" ["a"],
    ⟨"7", .str "x", []⟩, wide "1" ["a", "b", "c", "d", "e"], wide "4" ["a", "b"]]

theorem write_packs_mixedWidths :
    ((fresh (severalRows changeLog (some 4))).Fits "rows" (severalRows changeLog (some 4)) ∧
      (fresh (severalRows changeLog (some 4))).closed = false ∧
      (severalRows changeLog (some 4)).mode = .multiRow (some 4)) ∧
    ∃ (report : WriteReport) (lines : List TableLine) (after : TableWriter),
      (fresh (severalRows changeLog (some 4))).write { root := "" } mixedWidths =
        (.ok report, after, Connection.appendAll { root := "" } ⟨"", "rows"⟩ lines) ∧
      after.Fits "rows" (severalRows changeLog (some 4)) ∧ after.closed = false ∧
      Packs (severalRows changeLog (some 4)) (some 4)
        (mixedWidths.map (Row.ofRecord (severalRows changeLog (some 4)))) report lines :=
  ⟨⟨fits_fresh _, rfl, rfl⟩, write_packs (fits_fresh _) rfl rfl { root := "" } mixedWidths⟩

end TableWriter

end TableRouting.JsonLines
