import TableRouting.Proofs.JsonLines.Chunking
import TableRouting.Proofs.Pairing

/-!
# Where rows come from

Whether a writer puts one row or several rows in a line, the rows of a line come from
records that are not reported as failed, in their order, and every such record that
gives a row has a line of its operation and its columns.
-/

namespace TableRouting.JsonLines

/-- The records of a group that a report does not list as failed. -/
def unreported (records : List Record) (report : WriteReport) : List Record :=
  (records.zipIdx.filter fun indexed =>
    indexed.2 ∉ report.failures.map RecordFailure.index).map Prod.fst

/-- The values of the row of a record, if it is one for a statement. -/
def valuesUnder? (spec : WriterSpec) (key : StatementKey) (record : Record) : Option (List Json) :=
  match Row.ofRecord spec record with
  | .ok (some row) => if row.key == key then some row.values else none
  | _ => none

/-- The rows of a line are those of the given records. -/
def TableLine.HoldsRowsOf (line : TableLine) (spec : WriterSpec) (sources : List Record) : Prop :=
  List.Forall₂ (fun record values =>
    Row.ofRecord spec record = .ok (some ⟨line.op, line.columns, values⟩)) sources line.rows

variable {spec : WriterSpec} {table : String} {records : List Record} {line : TableLine}

theorem valuesUnder?_eq_some_iff {key : StatementKey} {record : Record} {values : List Json} :
    valuesUnder? spec key record = some values ↔
      Row.ofRecord spec record = .ok (some ⟨key.op, key.columns, values⟩) := by
  rw [valuesUnder?]
  split
  · rename_i row hrow
    rw [hrow]
    simp only [Option.ite_none_right_eq_some, beq_iff_eq, Option.some.injEq, Except.ok.injEq]
    constructor
    · rintro ⟨rfl, rfl⟩
      rfl
    · rintro rfl
      exact ⟨rfl, rfl⟩
  · rename_i hnone
    constructor
    · intro hvalues
      exact nomatch hvalues
    · intro hrow
      exact absurd hrow (hnone _)

theorem mem_of_mem_unreported {report : WriteReport} {record : Record}
    (hrecord : record ∈ unreported records report) : record ∈ records := by
  obtain ⟨indexed, hindexed, rfl⟩ := List.mem_map.mp hrecord
  exact List.fst_mem_of_mem_zipIdx (List.mem_filter.mp hindexed).1

namespace TableWriter

/-- A failure of a row by itself is that of the record at its position. -/
theorem mem_failuresFrom {start : Nat} {extracted : List Extracted} {failure : RecordFailure}
    (hfailure : failure ∈ failuresFrom start extracted) :
    ∃ offset, failure.index = start + offset ∧
      extracted[offset]? = some (.error failure.error) := by
  induction extracted generalizing start with
  | nil => exact absurd hfailure List.not_mem_nil
  | cons first rest ih =>
      have hlater : failure ∈ failuresFrom (start + 1) rest → ∃ offset,
          failure.index = start + offset ∧
            (first :: rest)[offset]? = some (.error failure.error) := by
        intro hrest
        obtain ⟨offset, hindex, herror⟩ := ih hrest
        exact ⟨offset + 1, by omega, herror⟩
      rcases first with e | row
      · rcases List.mem_cons.mp hfailure with rfl | hrest
        · exact ⟨0, rfl, rfl⟩
        · exact hlater hrest
      · exact hlater hfailure

/-- With one row in a line, the records that are not reported give all rows. -/
theorem rowsBut_failuresFrom (extracted : List Extracted) :
    rowsBut ((failuresFrom 0 extracted).map RecordFailure.index) extracted =
      rowsOf extracted := by
  have hall : rowsOf extracted = rowsOf (extracted.zipIdx.map Prod.fst) := by
    rw [List.zipIdx_map_fst]
  rw [rowsBut, hall, rowsOf, rowsOf, List.filterMap_map, List.filterMap_map,
    List.filterMap_filter]
  apply List.filterMap_congr
  rintro ⟨given, index⟩ hgiven
  rw [ite_eq_left_iff]
  intro hfailed
  obtain ⟨failure, hfailure, rfl⟩ := List.mem_map.mp (by simpa using hfailed)
  obtain ⟨offset, hindex, herror⟩ := mem_failuresFrom hfailure
  rw [Nat.zero_add] at hindex
  rw [← hindex] at herror
  obtain rfl := Option.some.inj ((List.mem_zipIdx_iff_getElem?.mp hgiven).symm.trans herror)
  rfl

/-- The lines of a statement hold the rows of the records that are not reported. -/
theorem rows_of_key (spec : WriterSpec) (table : String) (records : List Record)
    (key : StatementKey) :
    ((lines spec table records).filter fun line => line.key == key).flatMap TableLine.rows =
      (unreported records (report spec records)).filterMap (valuesUnder? spec key) := by
  have hrows : ((rowsBut ((report spec records).failures.map RecordFailure.index)
      (records.map (Row.ofRecord spec))).filter fun row => row.key == key).map Row.values =
        (unreported records (report spec records)).filterMap (valuesUnder? spec key) := by
    rw [rowsBut, unreported, List.zipIdx_map, List.filter_map, rowsOf, List.map_map,
      List.filterMap_map, List.filter_filterMap, List.map_filterMap, List.filterMap_map]
    apply List.filterMap_congr
    intro indexed _
    simp only [Function.comp_apply, Prod.map_fst, valuesUnder?]
    cases Row.ofRecord spec indexed.1 with
    | error e => rfl
    | ok given =>
        cases given with
        | none => rfl
        | some row =>
          simp only [Option.filter_some]
          split <;> rfl
  rw [← hrows]
  cases hmode : spec.mode with
  | singleRow =>
      rw [flatMap_rows_of_key]
      simp only [lines, report, statementsFor, reportOn, hmode, listed_single,
        rowsBut_failuresFrom]
  | multiRow limit => exact (packs hmode table records).rows key

/-- The rows of a line come from records that are not reported, in their order. -/
theorem exists_sources (hline : line ∈ lines spec table records) :
    ∃ sources, sources.Sublist (unreported records (report spec records)) ∧
      line.HoldsRowsOf spec sources := by
  have hpart : line.rows.Sublist
      ((unreported records (report spec records)).filterMap (valuesUnder? spec line.key)) := by
    rw [← rows_of_key spec table records line.key, List.flatMap_def]
    apply List.sublist_flatten_of_mem
    exact List.mem_map_of_mem (List.mem_filter.mpr ⟨hline, beq_self_eq_true _⟩)
  obtain ⟨sources, hsources, hrows⟩ := exists_forall₂_of_sublist_filterMap hpart
  exact ⟨sources, hsources, hrows.imp fun _ _ => valuesUnder?_eq_some_iff.mp⟩

/-- A record that is not reported and gives a row is in a line. -/
theorem exists_line (table : String) {record : Record} {row : Row}
    (hrecord : record ∈ unreported records (report spec records))
    (hrow : Row.ofRecord spec record = .ok (some row)) :
    ∃ line ∈ lines spec table records, line.key = row.key ∧ row.values ∈ line.rows := by
  have hvalues : row.values ∈
      (unreported records (report spec records)).filterMap (valuesUnder? spec row.key) :=
    List.mem_filterMap.mpr ⟨record, hrecord, valuesUnder?_eq_some_iff.mpr hrow⟩
  rw [← rows_of_key spec table, List.mem_flatMap] at hvalues
  obtain ⟨line, hline, hin⟩ := hvalues
  obtain ⟨hline, hkey⟩ := List.mem_filter.mp hline
  exact ⟨line, hline, eq_of_beq hkey, hin⟩

end TableWriter

end TableRouting.JsonLines
