import TableRouting.Proofs.Blocks
import TableRouting.Proofs.JsonLines.Chunking

/-!
# Blocks of mapped rows

With field mappings every row binds one parameter for each mapping, and a record that
fails takes up as many.  So the chunks are blocks of one size, wherever the failures and
the dropped records stand, and the rows of a block share their columns: a block becomes
one line for each operation.
-/

namespace TableRouting.JsonLines.TableWriter

variable {spec : WriterSpec} {records : List Record}

def keptItem? (spec : WriterSpec) (indexed : Record × Nat) : Option ChunkItem :=
  match Row.ofRecord spec indexed.1 with
  | .ok none => none
  | .ok (some row) => some (indexed.2, .ok row)
  | .error error => some (indexed.2, .error error)

/-- The records of a group that are not dropped, each with its position. -/
def kept (spec : WriterSpec) (records : List Record) : List ChunkItem :=
  records.zipIdx.filterMap (keptItem? spec)

/-- How many rows of mapped columns fit into one statement: at least one, and without a
limit all of them. -/
def rowsPerStatement (mapped : Nat) (limit : Option Nat) (count : Nat) : Nat :=
  match limit with
  | none => count
  | some most => max 1 (most / mapped)

/-- The blocks that the records of a group are written in. -/
def blocks (spec : WriterSpec) (limit : Option Nat) (records : List Record) :
    List (List ChunkItem) :=
  blocksOf (rowsPerStatement spec.mappings.length limit (kept spec records).length)
    (kept spec records)

def isWhole (block : List ChunkItem) : Bool := block.all fun item => item.2.isOk

/-- The lines of a block: one for each operation, in the order of their first rows. -/
def blockLines (spec : WriterSpec) (table : String) (block : List ChunkItem) : List TableLine :=
  ((chunkRows block).map Row.op).eraseDups.map fun op =>
    { op
      schema := spec.schema
      table
      columns := mappedColumns spec
      params := paramValues spec (mappedColumns spec)
      rows := ((chunkRows block).filter fun row => row.op == op).map Row.values }

/-- What a writer makes of records in blocks. -/
structure FillsBlocks (spec : WriterSpec) (table : String) (limit : Option Nat)
    (records : List Record) (report : WriteReport) (lines : List TableLine) : Prop where
  /-- The blocks are those of the records that are not dropped, in their order. -/
  flatten : (blocks spec limit records).flatten = kept spec records
  /-- Every block but the last is full. -/
  full : ∀ block ∈ (blocks spec limit records).dropLast,
    block.length = rowsPerStatement spec.mappings.length limit (kept spec records).length
  nonempty : ∀ block ∈ blocks spec limit records, block ≠ []
  atMost : ∀ block ∈ blocks spec limit records,
    block.length ≤ rowsPerStatement spec.mappings.length limit (kept spec records).length
  /-- A block without a failure is written, a line for each operation. -/
  lines_eq : lines = ((blocks spec limit records).filter isWhole).flatMap (blockLines spec table)
  written : report.written = (((blocks spec limit records).filter isWhole).map List.length).sum
  /-- It is written completely. -/
  complete : ∀ block ∈ blocks spec limit records, isWhole block = true →
    ((blockLines spec table block).map fun line => line.rows.length).sum = block.length
  /-- A block with a failure is reported as a whole. -/
  rejected : report.failures.map RecordFailure.index =
    ((blocks spec limit records).filter fun block => !isWhole block).flatten.map Prod.fst
  /-- A record that fails is reported with its own error. -/
  own : ∀ index error, (index, .error error) ∈ kept spec records →
    ⟨index, error⟩ ∈ report.failures
  discarded : report.discarded + (kept spec records).length = records.length

theorem keptItems_eq_kept (spec : WriterSpec) (records : List Record) :
    keptItems 0 (records.map (Row.ofRecord spec)) = kept spec records := by
  rw [kept]
  generalize 0 = start
  induction records generalizing start with
  | nil => rfl
  | cons record rest ih =>
      rw [List.map_cons, List.zipIdx_cons, List.filterMap_cons, keptItem?]
      cases hgiven : Row.ofRecord spec record with
      | error error => exact congrArg _ (ih (start + 1))
      | ok row =>
          cases row with
          | none => exact ih (start + 1)
          | some row => exact congrArg _ (ih (start + 1))

theorem isClean_eq_isWhole (block : List ChunkItem) : isClean block = isWhole block := by
  induction block with
  | nil => rfl
  | cons item rest ih =>
      obtain ⟨index, error | row⟩ := item
      · rfl
      · simpa [isClean, firstFailed?, isWhole, Except.isOk, Except.toBool] using ih

/-- An item is what the record at its position gives. -/
theorem mem_kept {index : Nat} {given : Except StoreError Row} :
    (index, given) ∈ kept spec records ↔
      ∃ record, records[index]? = some record ∧ Row.ofRecord spec record = given.map some := by
  rw [← keptItems_eq_kept, mem_keptItems]
  simp [Option.map_eq_some_iff]

/-- The row of an item is that of mapped columns. -/
theorem row_of_mem_kept (hmapped : spec.mappings ≠ []) {index : Nat} {row : Row}
    (hitem : (index, .ok row) ∈ kept spec records) :
    row.columns = mappedColumns spec ∧ row.values.length = spec.mappings.length := by
  obtain ⟨record, -, hrow⟩ := mem_kept.mp hitem
  obtain ⟨-, hbinds⟩ := Row.ofRecord_eq_some_iff.mp hrow
  have hcolumns := hbinds.columns_of_mapped hmapped
  exact ⟨hcolumns, by rw [hbinds.length_eq, hcolumns, mappedColumns, List.length_map]⟩

/-- An item takes up as many parameters as there are mappings, whether it fails or not. -/
theorem itemWidth_of_mem_kept (hmapped : spec.mappings ≠ []) {item : ChunkItem}
    (hitem : item ∈ kept spec records) : itemWidth spec item = spec.mappings.length := by
  have hpos : 1 ≤ spec.mappings.length := List.length_pos_iff.mpr hmapped
  obtain ⟨index, error | row⟩ := item
  · exact Nat.max_eq_left hpos
  · calc
      itemWidth spec (index, .ok row) = max row.values.length 1 := rfl
      _ = spec.mappings.length := by
        rw [(row_of_mem_kept hmapped hitem).2, Nat.max_eq_left hpos]

theorem rowsPerStatement_pos {limit : Option Nat} {block : List ChunkItem}
    (hblock : block ∈ blocks spec limit records) :
    0 < rowsPerStatement spec.mappings.length limit (kept spec records).length := by
  cases limit with
  | none =>
      apply List.length_pos_iff.mpr
      intro hnone
      rw [blocks, hnone, blocksOf_nil] at hblock
      exact List.not_mem_nil hblock
  | some most => exact Nat.le_max_left 1 _

/-- Without a limit there is one chunk. -/
theorem cutChunks_of_unlimited (hmode : spec.mode = .multiRow none) (chunk : List ChunkItem)
    (bound : Nat) (items : List ChunkItem) (hsome : chunk.reverse ++ items ≠ []) :
    cutChunks spec chunk bound items = [chunk.reverse ++ items] := by
  induction items generalizing chunk bound with
  | nil =>
      rw [List.append_nil] at hsome ⊢
      have hchunk : chunk.isEmpty = false := by
        cases chunk with
        | nil => exact absurd rfl hsome
        | cons item rest => rfl
      rw [cutChunks, hchunk]
      rfl
  | cons item rest ih =>
      have hadmits : spec.mode.admits bound (itemWidth spec item) = true := by
        rw [hmode]
        rfl
      have hnext : (item :: chunk).reverse ++ rest = chunk.reverse ++ item :: rest := by simp
      rw [cutChunks, if_pos hadmits, ih _ _ (hnext ▸ hsome), hnext]

/-- With a limit, items of one width fill chunks of one size. -/
theorem cutChunks_of_limit {most width : Nat} (hmode : spec.mode = .multiRow (some most))
    (hwidth : 0 < width) (chunk : List ChunkItem) {items : List ChunkItem}
    (hitems : ∀ item ∈ items, itemWidth spec item = width)
    (hchunk : chunk.length ≤ max 1 (most / width)) :
    cutChunks spec chunk (chunk.length * width) items =
      blocksOf (max 1 (most / width)) (chunk.reverse ++ items) := by
  induction items generalizing chunk with
  | nil =>
      rw [List.append_nil, cutChunks]
      split
      · rename_i hempty
        rw [List.isEmpty_iff.mp hempty, List.reverse_nil, blocksOf_nil]
      · rename_i hsome
        rw [blocksOf_of_length_le]
        · simpa using hsome
        · rwa [List.length_reverse]
  | cons item rest ih =>
      obtain ⟨hitem, hrest⟩ := List.forall_mem_cons.mp hitems
      -- A further item is admitted while the chunk is shorter than a block.
      have hadmits : spec.mode.admits (chunk.length * width) width = true ↔
          chunk.length < max 1 (most / width) := by
        have hroom : chunk.length * width + width ≤ most ↔ chunk.length + 1 ≤ most / width := by
          rw [Nat.le_div_iff_mul_le hwidth, Nat.succ_mul]
        rw [hmode]
        simp only [WriteMode.admits, Bool.or_eq_true, beq_iff_eq, decide_eq_true_eq,
          Nat.mul_eq_zero, hroom]
        omega
      rw [cutChunks, hitem]
      split
      · rename_i hroom
        have hnext := ih (item :: chunk) hrest (hadmits.mp hroom)
        rw [List.length_cons, Nat.succ_mul] at hnext
        rw [hnext, List.reverse_cons, List.append_assoc, List.singleton_append]
      · rename_i hfull
        have hlength : chunk.length = max 1 (most / width) := by
          rw [hadmits] at hfull
          omega
        have hnext := ih [item] hrest (Nat.le_max_left 1 _)
        rw [List.length_singleton, Nat.one_mul] at hnext
        have hnonempty : chunk.reverse ≠ [] := by
          intro hnone
          rw [← List.length_reverse, hnone, List.length_nil] at hlength
          omega
        rw [hnext, blocksOf_append hnonempty (List.length_reverse.trans hlength)]
        rfl

/-- The chunks of mapped rows are blocks of one size. -/
theorem chunks_eq_blocks {limit : Option Nat} (hmode : spec.mode = .multiRow limit)
    (hmapped : spec.mappings ≠ []) (records : List Record) :
    chunks spec (records.map (Row.ofRecord spec)) = blocks spec limit records := by
  rw [chunks, keptItems_eq_kept, blocks]
  cases limit with
  | none =>
      rw [rowsPerStatement]
      by_cases hnone : kept spec records = []
      · rw [hnone, cutChunks, List.isEmpty_nil, if_pos rfl, blocksOf_nil]
      · rw [cutChunks_of_unlimited hmode _ _ _ hnone, List.reverse_nil, List.nil_append,
          blocksOf_of_length_le hnone (Nat.le_refl _)]
  | some most =>
      have hitems : ∀ item ∈ kept spec records, itemWidth spec item = spec.mappings.length :=
        fun item hitem => itemWidth_of_mem_kept hmapped hitem
      have hempty : ([] : List ChunkItem).length ≤ max 1 (most / spec.mappings.length) :=
        Nat.zero_le _
      have hcut := cutChunks_of_limit hmode (List.length_pos_iff.mpr hmapped) [] hitems hempty
      rwa [List.length_nil, Nat.zero_mul] at hcut

/-- Rows that share their columns make one statement for each operation. -/
theorem statementsOf_of_columns {rows : List Row} {columns : List String}
    (hcolumns : ∀ row ∈ rows, row.columns = columns) :
    statementsOf rows = (rows.map Row.op).eraseDups.map fun op =>
      (⟨op, columns⟩, (rows.filter fun row => row.op == op).map Row.values) := by
  have hkey : ∀ row ∈ rows, row.key = ⟨row.op, columns⟩ := by
    intro row hrow
    rw [Row.key, hcolumns row hrow]
  have hkeys : (rows.map fun row => (row.key, row.values)).map Prod.fst =
      (rows.map Row.op).map fun op => (⟨op, columns⟩ : StatementKey) := by
    rw [List.map_map, List.map_map]
    exact List.map_congr_left hkey
  have hinjective : Function.Injective fun op => (⟨op, columns⟩ : StatementKey) :=
    fun _ _ hsame => (StatementKey.mk.inj hsame).1
  rw [statementsOf, Grouping.group_eq, hkeys, Grouping.eraseDups_map hinjective, List.map_map]
  apply List.map_congr_left
  intro op _
  rw [Function.comp_apply, List.filter_map, List.map_map]
  congr 2
  apply List.filter_congr
  intro row hrow
  rw [Function.comp_apply, hkey row hrow]
  exact Bool.eq_iff_iff.mpr (by simp)

theorem lines_of_block {limit : Option Nat} (hmapped : spec.mappings ≠ []) (table : String)
    {block : List ChunkItem} (hblock : block ∈ blocks spec limit records) :
    (statementsOf (chunkRows block)).map (lineOf spec table) = blockLines spec table block := by
  have hcolumns : ∀ row ∈ chunkRows block, row.columns = mappedColumns spec := by
    intro row hrow
    obtain ⟨index, hitem⟩ := mem_chunkRows.mp hrow
    have hkept : (index, .ok row) ∈ kept spec records := by
      rw [← flatten_blocksOf _ (kept spec records)]
      exact List.mem_flatten.mpr ⟨block, hblock, hitem⟩
    exact (row_of_mem_kept hmapped hkept).1
  rw [statementsOf_of_columns hcolumns, List.map_map]
  rfl

theorem fillsBlocks {limit : Option Nat} (hmode : spec.mode = .multiRow limit)
    (hmapped : spec.mappings ≠ []) (table : String) (records : List Record) :
    FillsBlocks spec table limit records (report spec records) (lines spec table records) where
  flatten := flatten_blocksOf _ _
  full block hblock :=
    length_of_mem_dropLast_blocksOf (rowsPerStatement_pos (List.dropLast_subset _ hblock)) hblock
  nonempty block hblock := ne_nil_of_mem_blocksOf hblock
  atMost block hblock := length_le_of_mem_blocksOf (rowsPerStatement_pos hblock) hblock
  lines_eq := by
    simp only [lines, statementsFor, hmode]
    rw [chunks_eq_blocks hmode hmapped, List.map_flatMap, funext isClean_eq_isWhole]
    apply List.flatMap_congr
    intro block hblock
    exact lines_of_block hmapped table (List.mem_filter.mp hblock).1
  written := by
    rw [written_report hmode, chunks_eq_blocks hmode hmapped, funext isClean_eq_isWhole]
  complete block hblock hwhole := by
    rw [← lines_of_block hmapped table hblock, List.map_map]
    rw [← isClean_eq_isWhole] at hwhole
    exact (sum_length_statementsOf _).trans (length_chunkRows hwhole)
  rejected := by
    rw [failures_report hmode, map_index_failures, chunks_eq_blocks hmode hmapped]
    simp only [isClean_eq_isWhole]
  own index error hitem := by
    obtain ⟨record, hrecord, herror⟩ := mem_kept.mp hitem
    apply (packs hmode table records).own index error
    rw [List.getElem?_map, hrecord]
    exact congrArg some herror
  discarded := by
    have hcount := count_kept 0 (records.map (Row.ofRecord spec))
    rw [keptItems_eq_kept, List.length_map] at hcount
    rw [(packs hmode table records).discarded, Nat.add_comm, hcount]

/-- An open writer with mappings and several rows in a line writes blocks of one size. -/
theorem write_fillsBlocks {writer : TableWriter} {table : String} {limit : Option Nat}
    (hfits : writer.Fits table spec) (hopen : writer.closed = false)
    (hmode : spec.mode = .multiRow limit) (hmapped : spec.mappings ≠ [])
    (connection : Connection) (records : List Record) :
    ∃ (report : WriteReport) (lines : List TableLine) (after : TableWriter),
      writer.write connection records =
        (.ok report, after, connection.appendAll ⟨spec.schema, table⟩ lines) ∧
      after.Fits table spec ∧ after.closed = false ∧
      FillsBlocks spec table limit records report lines := by
  obtain ⟨after, hafter, hstill, hwrite⟩ := hfits.write hopen connection records
  exact ⟨_, _, after, hwrite, hafter, hstill, fillsBlocks hmode hmapped table records⟩

/-- Settings with two mappings and room for five parameters, so for two rows in a line. -/
def twoMapped : WriterSpec :=
  { severalRows changeLog (some 5) with mappings := [⟨"id", "ID", "?"⟩, ⟨"/v/0", "v", "f(?)"⟩] }

/-- A change of a row that the mappings of `twoMapped` cover. -/
def covered (code : String) : Record :=
  ⟨"1", .obj [("id", .str "1"), ("v", .arr [.bool true])], [(operationHeader, code)]⟩

/-- Two blocks that are written, with one operation and with two, each around a record
that is dropped; between them a block that fails; and a shorter block. -/
def scatteredFailure : List Record :=
  [covered "1", covered "9", covered "1", covered "1", change "1", covered "2", covered "9",
    covered "3", covered "4"]

theorem write_fillsBlocks_scatteredFailure :
    ((fresh twoMapped).Fits "rows" twoMapped ∧ (fresh twoMapped).closed = false ∧
      twoMapped.mode = .multiRow (some 5) ∧ twoMapped.mappings ≠ []) ∧
    ∃ (report : WriteReport) (lines : List TableLine) (after : TableWriter),
      (fresh twoMapped).write { root := "" } scatteredFailure =
        (.ok report, after, Connection.appendAll { root := "" } ⟨"", "rows"⟩ lines) ∧
      after.Fits "rows" twoMapped ∧ after.closed = false ∧
      FillsBlocks twoMapped "rows" (some 5) scatteredFailure report lines :=
  ⟨⟨fits_fresh _, rfl, rfl, List.cons_ne_nil _ _⟩,
    write_fillsBlocks (fits_fresh _) rfl rfl (List.cons_ne_nil _ _) { root := "" } scatteredFailure⟩

end TableRouting.JsonLines.TableWriter
