import TableRouting.Proofs.JsonLines.Writing

/-!
# Counting records

A record of a group is written, dropped or rejected, and one of these only.  With
chunks this holds because the chunks partition the records that are not dropped,
and each chunk is written or rejected as a whole.
-/

namespace TableRouting.JsonLines.TableWriter

theorem count_single (index : Nat) (extracted : List Extracted) :
    (rowsOf extracted).length + droppedCount extracted +
      (failuresFrom index extracted).length = extracted.length := by
  induction extracted generalizing index with
  | nil => rfl
  | cons first rest ih =>
      have hrest := ih (index + 1)
      rcases first with e | _ | row
      · simp only [rowsOf, droppedCount, failuresFrom, List.filterMap_cons, List.countP_cons,
          List.length_cons, Bool.false_eq_true, if_false] at hrest ⊢
        omega
      · simp only [rowsOf, droppedCount, failuresFrom, List.filterMap_cons, List.countP_cons,
          List.length_cons, if_true] at hrest ⊢
        omega
      · simp only [rowsOf, droppedCount, failuresFrom, List.filterMap_cons, List.countP_cons,
          List.length_cons, Bool.false_eq_true, if_false] at hrest ⊢
        omega

theorem count_kept (index : Nat) (extracted : List Extracted) :
    (keptItems index extracted).length + droppedCount extracted = extracted.length := by
  induction extracted generalizing index with
  | nil => rfl
  | cons first rest ih =>
      have hrest := ih (index + 1)
      rcases first with e | _ | row
      · simp only [keptItems, droppedCount, List.countP_cons, List.length_cons,
          Bool.false_eq_true, if_false] at hrest ⊢
        omega
      · simp only [keptItems, droppedCount, List.countP_cons, List.length_cons,
          if_true] at hrest ⊢
        omega
      · simp only [keptItems, droppedCount, List.countP_cons, List.length_cons,
          Bool.false_eq_true, if_false] at hrest ⊢
        omega

/-- The chunks hold every item, in order. -/
theorem flatten_cutChunks (spec : WriterSpec) (chunk : List ChunkItem) (bound : Nat)
    (items : List ChunkItem) :
    (cutChunks spec chunk bound items).flatten = chunk.reverse ++ items := by
  induction items generalizing chunk bound with
  | nil =>
      rw [cutChunks, List.append_nil]
      split
      · rename_i hempty
        rw [List.isEmpty_iff.mp hempty]
        rfl
      · exact List.flatten_singleton
  | cons item rest ih =>
      rw [cutChunks]
      split
      · rw [ih, List.reverse_cons, List.append_assoc]
        rfl
      · rw [List.flatten_cons, ih]
        rfl

theorem length_chunkFailures (chunk : List ChunkItem) :
    (chunkFailures chunk).length = if isClean chunk then 0 else chunk.length := by
  rw [chunkFailures, isClean]
  cases firstFailed? chunk with
  | none => rfl
  | some failed => simp

theorem length_chunkRows {chunk : List ChunkItem} (hclean : isClean chunk = true) :
    (chunkRows chunk).length = chunk.length := by
  induction chunk with
  | nil => rfl
  | cons item rest ih =>
      obtain ⟨index, e | row⟩ := item
      · simp [isClean, firstFailed?] at hclean
      · have hrest : isClean rest = true := by
          simpa [isClean, firstFailed?] using hclean
        simpa [chunkRows] using ih hrest

/-- A statement per kind of row takes up every row. -/
theorem sum_length_statementsOf (rows : List Row) :
    ((statementsOf rows).map fun statement => statement.2.length).sum = rows.length := by
  rw [statementsOf, Grouping.sum_length_group, List.length_map]

/-- A chunk is written or rejected as a whole. -/
theorem sum_length_chunks (chunks : List (List ChunkItem)) :
    ((chunks.filter isClean).map List.length).sum + (chunks.flatMap chunkFailures).length =
      chunks.flatten.length := by
  induction chunks with
  | nil => rfl
  | cons chunk rest ih =>
      rw [List.flatMap_cons, List.flatten_cons, List.length_append, List.length_append, ← ih,
        length_chunkFailures]
      by_cases hclean : isClean chunk = true
      · rw [List.filter_cons_of_pos hclean, if_pos hclean, List.map_cons, List.sum_cons]
        omega
      · rw [List.filter_cons_of_neg hclean, if_neg hclean]
        omega

/-- Every record of a group is counted once. -/
theorem count_reportOn (spec : WriterSpec) (extracted : List Extracted) :
    (reportOn spec extracted).written + (reportOn spec extracted).discarded +
      (reportOn spec extracted).failures.length = extracted.length := by
  rw [reportOn]
  cases spec.mode with
  | singleRow => exact count_single 0 extracted
  | multiRow limit =>
      have hchunks := sum_length_chunks (chunks spec extracted)
      have hkept := count_kept 0 extracted
      rw [chunks, flatten_cutChunks] at hchunks
      rw [List.reverse_nil, List.nil_append] at hchunks
      simp only [chunks]
      omega

theorem count_report (spec : WriterSpec) (records : List Record) :
    (report spec records).written + (report spec records).discarded +
      (report spec records).failures.length = records.length := by
  rw [report, count_reportOn, List.length_map]

/-- The lines hold as many rows as records were written. -/
theorem sum_rows_statementsFor (spec : WriterSpec) (extracted : List Extracted) :
    ((statementsFor spec extracted).map fun statement => statement.2.length).sum =
      (reportOn spec extracted).written := by
  rw [statementsFor, reportOn]
  cases spec.mode with
  | singleRow =>
      rw [List.map_map]
      simp [Function.comp_def]
  | multiRow limit =>
      simp only
      generalize hchunks : chunks spec extracted = pieces
      clear hchunks
      induction pieces with
      | nil => rfl
      | cons chunk rest ih =>
          by_cases hclean : isClean chunk = true
          · rw [List.filter_cons_of_pos hclean, List.flatMap_cons, List.map_append,
              List.sum_append, ih, sum_length_statementsOf, length_chunkRows hclean,
              List.map_cons, List.sum_cons]
          · rw [List.filter_cons_of_neg hclean]
            exact ih

theorem sum_rows_lines (spec : WriterSpec) (table : String) (records : List Record) :
    ((lines spec table records).map fun line => line.rows.length).sum =
      (report spec records).written := by
  rw [report, ← sum_rows_statementsFor, lines, List.map_map]
  rfl

/-- Every line holds a row. -/
theorem rows_ne_nil {spec : WriterSpec} {table : String} {records : List Record}
    {line : TableLine} (hline : line ∈ lines spec table records) : line.rows ≠ [] := by
  obtain ⟨⟨key, rows⟩, hstatement, rfl⟩ := List.mem_map.mp hline
  rw [statementsFor] at hstatement
  cases hmode : spec.mode with
  | singleRow =>
      simp only [hmode] at hstatement
      obtain ⟨row, -, hrow⟩ := List.mem_map.mp hstatement
      obtain ⟨-, rfl⟩ := Prod.mk.inj hrow
      exact List.cons_ne_nil _ _
  | multiRow limit =>
      simp only [hmode] at hstatement
      obtain ⟨chunk, -, hgroup⟩ := List.mem_flatMap.mp hstatement
      exact Grouping.group_ne_nil hgroup

theorem lines_eq_nil_iff (spec : WriterSpec) (table : String) (records : List Record) :
    lines spec table records = [] ↔ (report spec records).written = 0 := by
  rw [← sum_rows_lines spec table]
  constructor
  · intro hnil
    rw [hnil]
    rfl
  · intro hzero
    apply List.eq_nil_iff_forall_not_mem.mpr
    intro line hline
    have hrows : line.rows.length = 0 :=
      List.sum_eq_zero_iff_forall_eq_nat.mp hzero _ (List.mem_map_of_mem hline)
    exact rows_ne_nil hline (List.length_eq_zero_iff.mp hrows)

/-- A line says which table and schema it belongs to. -/
theorem table_of_mem_lines {spec : WriterSpec} {table : String} {records : List Record}
    {line : TableLine} (hline : line ∈ lines spec table records) :
    line.table = table ∧ line.schema = spec.schema := by
  obtain ⟨statement, -, rfl⟩ := List.mem_map.mp hline
  exact ⟨rfl, rfl⟩

theorem index_lt_of_mem_failuresFrom {index : Nat} {extracted : List Extracted}
    {failure : RecordFailure} (hfailure : failure ∈ failuresFrom index extracted) :
    failure.index < index + extracted.length := by
  induction extracted generalizing index with
  | nil => simp [failuresFrom] at hfailure
  | cons first rest ih =>
      rcases first with e | row
      · rcases List.mem_cons.mp hfailure with rfl | hrest
        · simp
        · have hlt := ih hrest
          rw [List.length_cons]
          omega
      · have hlt := ih hfailure
        rw [List.length_cons]
        omega

theorem index_lt_of_mem_keptItems {index : Nat} {extracted : List Extracted} {item : ChunkItem}
    (hitem : item ∈ keptItems index extracted) : item.1 < index + extracted.length := by
  induction extracted generalizing index with
  | nil => simp [keptItems] at hitem
  | cons first rest ih =>
      rw [List.length_cons]
      rcases first with e | _ | row
      · rcases List.mem_cons.mp hitem with rfl | hrest
        · simp
        · have hlt := ih hrest
          omega
      · have hlt := ih hitem
        omega
      · rcases List.mem_cons.mp hitem with rfl | hrest
        · simp
        · have hlt := ih hrest
          omega

/-- A failure of a chunk names an item of it. -/
theorem mem_of_mem_chunkFailures {chunk : List ChunkItem} {failure : RecordFailure}
    (hfailure : failure ∈ chunkFailures chunk) : ∃ item ∈ chunk, item.1 = failure.index := by
  rw [chunkFailures] at hfailure
  split at hfailure
  · simp at hfailure
  · obtain ⟨⟨index, e | row⟩, hitem, rfl⟩ := List.mem_map.mp hfailure
    · exact ⟨_, hitem, rfl⟩
    · exact ⟨_, hitem, rfl⟩

/-- Every failure that is reported is that of a record of the group. -/
theorem index_lt_of_mem_report {spec : WriterSpec} {records : List Record}
    {failure : RecordFailure} (hfailure : failure ∈ (report spec records).failures) :
    failure.index < records.length := by
  have hlength : (records.map (Row.ofRecord spec)).length = records.length := List.length_map _
  rw [report, reportOn] at hfailure
  rw [← hlength, ← Nat.zero_add (List.length _)]
  cases hmode : spec.mode with
  | singleRow =>
      simp only [hmode] at hfailure
      exact index_lt_of_mem_failuresFrom hfailure
  | multiRow limit =>
      simp only [hmode] at hfailure
      obtain ⟨chunk, hchunk, hfailed⟩ := List.mem_flatMap.mp hfailure
      obtain ⟨item, hitem, hindex⟩ := mem_of_mem_chunkFailures hfailed
      rw [← hindex]
      apply index_lt_of_mem_keptItems
      have hall : item ∈ (chunks spec (records.map (Row.ofRecord spec))).flatten :=
        List.mem_flatten.mpr ⟨chunk, hchunk, hitem⟩
      rwa [chunks, flatten_cutChunks] at hall

end TableRouting.JsonLines.TableWriter
