import TableRouting.Proofs.Config.Mappings
import TableRouting.Proofs.JsonLines.History
import TableRouting.Proofs.JsonLines.Sources

/-!
# Columns, parameters and values

The columns of a line, the expressions that bind them and the values of its rows stand
in one order, whatever the writer wrote before.  The expressions are found by column, so
this rests on the configuration: it is accepted only if its mappings have distinct
columns.  The keys of a record are checked by nobody, and without mappings two of them
may become one column.
-/

namespace TableRouting.JsonLines

variable {spec : WriterSpec} {record : Record} {columns : List String} {values : List Json}

/-- When columns are distinct, each is bound by the expression of its own mapping. -/
theorem paramValues_mappedColumns (hdistinct : (mappedColumns spec).Nodup) :
    paramValues spec (mappedColumns spec) = spec.mappings.map FieldMapping.paramValue := by
  rw [paramValues, mappedColumns, List.map_map]
  apply List.map_congr_left
  intro mapping hmapping
  -- The search finds the first mapping to the column, and there is no other.
  have hfirst : (spec.mappings.find? fun other =>
      columnName spec.caseSensitive other.column = columnName spec.caseSensitive mapping.column) =
        some mapping := by
    cases hfind : spec.mappings.find? fun other =>
        columnName spec.caseSensitive other.column =
          columnName spec.caseSensitive mapping.column with
    | none => exact absurd (decide_eq_true rfl) (List.find?_eq_none.mp hfind mapping hmapping)
    | some first =>
        have hcolumn := List.find?_some hfind
        rw [decide_eq_true_eq] at hcolumn
        rw [List.inj_on_of_nodup_map hdistinct (List.mem_of_find?_eq_some hfind) hmapping hcolumn]
  simp only [Function.comp_apply, hfirst]

theorem paramValues_of_unmapped (hunmapped : spec.mappings = []) (columns : List String) :
    paramValues spec columns = columns.map fun _ => "?" := by
  simp [paramValues, hunmapped]

theorem length_paramValues (spec : WriterSpec) (columns : List String) :
    (paramValues spec columns).length = columns.length :=
  List.length_map _

/-- A line that was made for records, given the report on them. -/
structure TableLine.Follows (line : TableLine) (spec : WriterSpec) (records : List Record)
    (report : WriteReport) : Prop where
  params_length : line.params.length = line.columns.length
  row_length : ∀ row ∈ line.rows, row.length = line.columns.length
  /-- Column and expression are those of the mapping in the same place. -/
  mapped : spec.mappings ≠ [] →
    line.columns = mappedColumns spec ∧
      line.params = spec.mappings.map FieldMapping.paramValue
  unmapped : spec.mappings = [] → line.params = line.columns.map fun _ => "?"
  /-- Each row binds the columns to what a record of the line's operation holds. -/
  sources : ∃ sources, sources.Sublist (unreported records report) ∧
    List.Forall₂ (fun record values =>
      record.operation spec.defaultOperation spec.unsupportedAction = .ok (some line.op) ∧
        Binds spec record line.columns values) sources line.rows

/-- Two keys of the row object of a record become one column. -/
def Clashes (spec : WriterSpec) (record : Record) : Prop :=
  spec.mappings = [] ∧ spec.caseSensitive = false ∧
    ∃ fields, spec.changeLogFormat.rowValues? record = some (.obj fields) ∧
      ∃ first ∈ fields.map Prod.fst, ∃ second ∈ fields.map Prod.fst,
        first ≠ second ∧ Text.lower first = Text.lower second

/-- A record is bound to distinct columns, unless it clashes. -/
theorem Binds.nodup_iff (hbinds : Binds spec record columns values)
    (hdistinct : (mappedColumns spec).Nodup) (hordered : record.value.Ordered) :
    columns.Nodup ↔ ¬ Clashes spec record := by
  cases hbinds with
  | mapped hmapped =>
      refine iff_of_true hdistinct ?_
      rintro ⟨hunmapped, -⟩
      exact hmapped hunmapped
  | @unmapped fields hunmapped hdata hkeys =>
      have hnodup : (fields.map Prod.fst).Nodup := (hkeys hordered).imp ne_of_lt
      have hcolumns : fieldColumns spec fields =
          (fields.map Prod.fst).map (columnName spec.caseSensitive) := by
        rw [List.map_map]
        rfl
      rw [hcolumns, List.nodup_map_iff_inj_on hnodup]
      constructor
      · rintro hinjective ⟨-, hfolded, others, hothers, first, hfirst, second, hsecond, hne, hsame⟩
        obtain rfl := Json.obj.inj (Option.some.inj (hdata.symm.trans hothers))
        rw [hfolded] at hinjective
        exact hne (hinjective first hfirst second hsecond hsame)
      · intro hapart first hfirst second hsecond hsame
        by_contra hne
        cases hcase : spec.caseSensitive with
        | true =>
            rw [hcase] at hsame
            exact hne hsame
        | false =>
            rw [hcase] at hsame
            exact hapart
              ⟨hunmapped, hcase, fields, hdata, first, hfirst, second, hsecond, hne, hsame⟩

namespace TableWriter

variable {table : String} {records : List Record} {line : TableLine}

theorem params_of_mem_lines (hline : line ∈ lines spec table records) :
    line.params = paramValues spec line.columns := by
  obtain ⟨statement, -, rfl⟩ := List.mem_map.mp hline
  rfl

/-- Each row binds the columns of its line to what a record of the line holds. -/
theorem exists_source (hline : line ∈ lines spec table records) {values : List Json}
    (hvalues : values ∈ line.rows) :
    ∃ record ∈ unreported records (report spec records),
      record.operation spec.defaultOperation spec.unsupportedAction = .ok (some line.op) ∧
        Binds spec record line.columns values := by
  obtain ⟨sources, hsources, hrows⟩ := exists_sources hline
  obtain ⟨record, hrecord, hrow⟩ := exists_left_of_forall₂ hrows hvalues
  exact ⟨record, hsources.mem hrecord, Row.ofRecord_eq_some_iff.mp hrow⟩

/-- Every line follows the mappings and its records. -/
theorem follows_of_mem_lines (hdistinct : (mappedColumns spec).Nodup)
    (hline : line ∈ lines spec table records) :
    line.Follows spec records (report spec records) := by
  obtain ⟨sources, hsources, hrows⟩ := exists_sources hline
  have hparams := params_of_mem_lines hline
  exact {
    params_length := by rw [hparams, length_paramValues]
    row_length := by
      intro values hvalues
      obtain ⟨record, -, -, hbinds⟩ := exists_source hline hvalues
      exact hbinds.length_eq
    mapped := by
      intro hmapped
      obtain ⟨values, hvalues⟩ := List.exists_mem_of_ne_nil _ (rows_ne_nil hline)
      obtain ⟨record, -, -, hbinds⟩ := exists_source hline hvalues
      have hcolumns := hbinds.columns_of_mapped hmapped
      rw [hparams, hcolumns, paramValues_mappedColumns hdistinct]
      exact ⟨rfl, rfl⟩
    unmapped := by
      intro hunmapped
      rw [hparams, paramValues_of_unmapped hunmapped]
    sources := ⟨sources, hsources, hrows.imp fun _ _ => Row.ofRecord_eq_some_iff.mp⟩ }

/-- A record that is written and clashes shows in a line, and nothing else makes a line
repeat a column. -/
theorem nodup_columns_iff (hdistinct : (mappedColumns spec).Nodup) (table : String)
    (hordered : ∀ record ∈ records, record.value.Ordered) :
    (∀ line ∈ lines spec table records, line.columns.Nodup) ↔
      ∀ record ∈ unreported records (report spec records),
        (∃ op, record.operation spec.defaultOperation spec.unsupportedAction = .ok (some op)) →
          ¬ Clashes spec record := by
  constructor
  · rintro hlines record hrecord ⟨op, hop⟩ hclashes
    obtain ⟨hunmapped, -, fields, hdata, -⟩ := id hclashes
    have hbinds := binds_fields hunmapped hdata
    have hrow : Row.ofRecord spec record =
        .ok (some ⟨op, fieldColumns spec fields, fields.map Prod.snd⟩) :=
      Row.ofRecord_eq_some_iff.mpr ⟨hop, hbinds⟩
    obtain ⟨line, hline, hkey, -⟩ := exists_line table hrecord hrow
    have hcolumns : line.columns = fieldColumns spec fields :=
      congrArg StatementKey.columns hkey
    have hnodup := hlines line hline
    rw [hcolumns, hbinds.nodup_iff hdistinct (hordered record (mem_of_mem_unreported hrecord))]
      at hnodup
    exact hnodup hclashes
  · intro hapart line hline
    obtain ⟨values, hvalues⟩ := List.exists_mem_of_ne_nil _ (rows_ne_nil hline)
    obtain ⟨record, hrecord, hop, hbinds⟩ := exists_source hline hvalues
    rw [hbinds.nodup_iff hdistinct (hordered record (mem_of_mem_unreported hrecord))]
    exact hapart record hrecord ⟨line.op, hop⟩

/-- Distinct columns for an accepted configuration. -/
theorem nodup_mappedColumns {config : Config} (hvalid : config.issues = []) :
    (mappedColumns (.ofConfig config.sink)).Nodup := by
  rw [Config.issues, List.append_eq_nil_iff] at hvalid
  exact SinkConfig.nodup_columns hvalid.1

/-- Whatever was written before, a writer of an accepted configuration adds lines that
follow the mappings, with a row for each record that it reports as written, and after its
release none. -/
theorem write_follows {config : Config} {writer : TableWriter} (hvalid : config.issues = [])
    (hcreate : create table (.ofConfig config.sink) = .ok writer) (calls : List WriterCall)
    (connection : Connection) (records : List Record) :
    if calls.any WriterCall.releases then
      (writer.afterAll calls).write connection records =
        (.error (.writerClosed table), writer.afterAll calls, connection)
    else
      ∃ (report : WriteReport) (lines : List TableLine) (after : TableWriter),
        (writer.afterAll calls).write connection records =
          (.ok report, after, connection.appendAll ⟨config.sink.schema, table⟩ lines) ∧
        (∀ line ∈ lines, line.Follows (.ofConfig config.sink) records report) ∧
        (lines.map fun line => line.rows.length).sum = report.written ∧
        report.written + report.discarded + report.failures.length = records.length := by
  split
  · rename_i hreleased
    exact write_afterAll_of_released hcreate hreleased connection records
  · rename_i hkept
    rw [Bool.not_eq_true] at hkept
    obtain ⟨after, hwrite⟩ := write_afterAll hcreate hkept connection records
    exact ⟨_, _, after, hwrite, fun _ => follows_of_mem_lines (nodup_mappedColumns hvalid),
      sum_rows_lines _ _ _, count_report _ _⟩

/-- A mapping from a name and one from a pointer, with several rows in a line. -/
def twoColumns : Config where
  sink :=
    { tableNameTemplate := "rows"
      fieldMappings := [⟨"id", "ID", "?"⟩, ⟨"/v/0", "v", "f(?)"⟩]
      useMultiRowOp := true }
  connection := { connectionString := "out" }

def bothFields (id : String) : Record :=
  ⟨id, .obj [("id", .str id), ("v", .arr [.null])], []⟩

/-- A record that is written, and one without the field of a mapping. -/
def mappedHistory : List WriterCall :=
  [.write { root := "" } [bothFields "1"],
    .write { root := "" } [⟨"2", .obj [("id", .str "2")], []⟩]]

theorem write_follows_mappedHistory :
    (twoColumns.issues = [] ∧
      create "rows" (.ofConfig twoColumns.sink) = .ok (fresh (.ofConfig twoColumns.sink)) ∧
      mappedHistory.any WriterCall.releases = false) ∧
    ∃ (report : WriteReport) (lines : List TableLine) (after : TableWriter),
      ((fresh (.ofConfig twoColumns.sink)).afterAll mappedHistory).write { root := "" }
          [bothFields "3", bothFields "4"] =
        (.ok report, after, Connection.appendAll { root := "" } ⟨"", "rows"⟩ lines) ∧
      (∀ line ∈ lines, line.Follows (.ofConfig twoColumns.sink)
        [bothFields "3", bothFields "4"] report) ∧
      (lines.map fun line => line.rows.length).sum = report.written ∧
      report.written + report.discarded + report.failures.length = 2 :=
  ⟨⟨by decide, rfl, rfl⟩,
    write_follows (by decide) (show create "rows" (.ofConfig twoColumns.sink) = _ from rfl)
      mappedHistory { root := "" } [bothFields "3", bothFields "4"]⟩

/-- The columns of the lines of an accepted configuration are distinct, unless a record
that is written has two keys that become one column; that takes a configuration without
mappings and without regard to case. -/
theorem write_nodup_columns_iff {config : Config} {writer : TableWriter}
    (hvalid : config.issues = []) (hcreate : create table (.ofConfig config.sink) = .ok writer)
    {calls : List WriterCall} (hkept : calls.any WriterCall.releases = false)
    (connection : Connection) {records : List Record}
    (hordered : ∀ record ∈ records, record.value.Ordered) :
    ∃ (report : WriteReport) (lines : List TableLine) (after : TableWriter),
      (writer.afterAll calls).write connection records =
        (.ok report, after, connection.appendAll ⟨config.sink.schema, table⟩ lines) ∧
      ((∀ line ∈ lines, line.columns.Nodup) ↔
        ∀ record ∈ unreported records report,
          (∃ op, record.operation config.sink.defaultOperation config.sink.unsupportedAction =
            .ok (some op)) → ¬ Clashes (.ofConfig config.sink) record) ∧
      (config.sink.fieldMappings ≠ [] ∨ config.sink.caseSensitive = true →
        ∀ line ∈ lines, line.columns.Nodup) := by
  obtain ⟨after, hwrite⟩ := write_afterAll hcreate hkept connection records
  have hiff := nodup_columns_iff (nodup_mappedColumns hvalid) table hordered
  refine ⟨_, _, after, hwrite, hiff, ?_⟩
  intro hexact
  apply hiff.mpr
  rintro record - - ⟨hunmapped, hfolded, -⟩
  rcases hexact with hmapped | hcase
  · exact hmapped hunmapped
  · exact Bool.false_ne_true (hfolded.symm.trans hcase)

def folding : Config where
  sink := { tableNameTemplate := "t", rollbackOnError := false, onRecordError := .discard }
  connection := { connectionString := "out" }

def bothCases : Record :=
  ⟨"1", .obj [("A", .num (.integer 1)), ("a", .num (.integer 2))], []⟩

theorem ordered_bothCases : bothCases.value.Ordered := by
  refine .obj (by decide) ?_
  intro field hfield
  rcases List.mem_pair.mp hfield with rfl | rfl <;> exact .num _

theorem clashes_bothCases : Clashes (.ofConfig folding.sink) bothCases :=
  ⟨rfl, rfl, _, rfl, "A", by decide, "a", by decide, by decide, rfl⟩

/-- The record is written, and its line repeats a column. -/
theorem not_nodup_bothCases :
    (folding.issues = [] ∧
      create "t" (.ofConfig folding.sink) =
        .ok { table := "t", spec := .ofConfig folding.sink } ∧
      ([] : List WriterCall).any WriterCall.releases = false ∧
      ∀ record ∈ [bothCases], record.value.Ordered) ∧
    ∃ (report : WriteReport) (lines : List TableLine) (after : TableWriter),
      (TableWriter.mk "t" (.ofConfig folding.sink) {} false).write { root := "" } [bothCases] =
        (.ok report, after, Connection.appendAll { root := "" } ⟨"", "t"⟩ lines) ∧
      report.failures = [] ∧ ¬ ∀ line ∈ lines, line.columns.Nodup := by
  have hordered : ∀ record ∈ [bothCases], record.value.Ordered := by
    intro record hrecord
    rw [List.mem_singleton.mp hrecord]
    exact ordered_bothCases
  refine ⟨⟨by decide, rfl, rfl, hordered⟩, ?_⟩
  obtain ⟨report, lines, after, hwrite, hiff, -⟩ := write_nodup_columns_iff (by decide)
    (show create "t" (.ofConfig folding.sink) = _ from rfl)
    (show ([] : List WriterCall).any WriterCall.releases = false from rfl) { root := "" } hordered
  have hreport : report = { written := 1 } :=
    (Except.ok.inj (congrArg Prod.fst hwrite)).symm
  refine ⟨report, lines, after, hwrite, ?_, ?_⟩
  · rw [hreport]
  · intro hdistinct
    refine hiff.mp hdistinct bothCases ?_ ⟨.insert, rfl⟩ clashes_bothCases
    rw [hreport]
    exact List.mem_singleton.mpr rfl

end TableWriter

end TableRouting.JsonLines
