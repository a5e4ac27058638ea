import Mathlib.Data.List.Forall2
import TableRouting.JsonLines.TableWriter
import TableRouting.Proofs.Json.Ordered

/-!
# What a record gives

A record gives a row of the operation that it resolves to.  With field mappings the
columns are those of the mappings, and each value is what the row data hold under the
field of the same mapping.  Without mappings the columns and values are the keys and
values of the row object, in the order of the keys.
-/

namespace TableRouting.JsonLines

variable {spec : WriterSpec} {record : Record}

def mappedColumns (spec : WriterSpec) : List String :=
  spec.mappings.map fun mapping => columnName spec.caseSensitive mapping.column

def fieldColumns (spec : WriterSpec) (fields : List (String × Json)) : List String :=
  fields.map fun field => columnName spec.caseSensitive field.1

/-- The columns and values that a record binds. -/
inductive Binds (spec : WriterSpec) (record : Record) : List String → List Json → Prop where
  /-- A value for each mapping, from the row data. -/
  | mapped {data : Json} {values : List Json} (hmapped : spec.mappings ≠ [])
      (hdata : spec.changeLogFormat.rowValues? record = some data)
      (hvalues : List.Forall₂ (fun mapping value => data.at? mapping.field = some value)
        spec.mappings values) :
      Binds spec record (mappedColumns spec) values
  /-- The keys and values of the row object, by key. -/
  | unmapped {fields : List (String × Json)} (hunmapped : spec.mappings = [])
      (hdata : spec.changeLogFormat.rowValues? record = some (.obj fields))
      (hkeys : record.value.Ordered → (fields.map Prod.fst).Pairwise (· < ·)) :
      Binds spec record (fieldColumns spec fields) (fields.map Prod.snd)

theorem Binds.length_eq {columns : List String} {values : List Json}
    (hbinds : Binds spec record columns values) : values.length = columns.length := by
  cases hbinds with
  | mapped _ _ hvalues => rw [mappedColumns, List.length_map, hvalues.length_eq]
  | unmapped => rw [fieldColumns, List.length_map, List.length_map]

theorem Binds.columns_of_mapped {columns : List String} {values : List Json}
    (hbinds : Binds spec record columns values) (hmapped : spec.mappings ≠ []) :
    columns = mappedColumns spec := by
  cases hbinds with
  | mapped => rfl
  | unmapped hunmapped => exact absurd hunmapped hmapped

/-- The row data of an ordered body are ordered. -/
theorem ordered_of_rowValues? {format : ChangeLogFormat} {data : Json}
    (hordered : record.value.Ordered) (hdata : format.rowValues? record = some data) :
    data.Ordered := by
  cases format with
  | none | msSql | oracle =>
      rw [← Option.some.inj hdata]
      exact hordered
  | mySqlBinLog | mongoOpLog => exact hordered.get? hdata

/-- Without mappings a record binds the fields of its row object. -/
theorem binds_fields {fields : List (String × Json)} (hunmapped : spec.mappings = [])
    (hdata : spec.changeLogFormat.rowValues? record = some (.obj fields)) :
    Binds spec record (fieldColumns spec fields) (fields.map Prod.snd) := by
  refine .unmapped hunmapped hdata ?_
  intro hordered
  cases ordered_of_rowValues? hordered hdata with
  | obj hkeys _ => exact hkeys

namespace Row

/-- The mappings give their columns, each with the value under its field. -/
theorem ofMappings_eq_ok_iff {caseSensitive : Bool} {id : String} {data : Json}
    {mappings : List FieldMapping} {columns : List String} {values : List Json} :
    ofMappings caseSensitive id data mappings = .ok (columns, values) ↔
      columns = (mappings.map fun mapping => columnName caseSensitive mapping.column) ∧
        List.Forall₂ (fun mapping value => data.at? mapping.field = some value)
          mappings values := by
  induction mappings generalizing columns values with
  | nil =>
      rw [ofMappings, List.forall₂_nil_left_iff, Except.ok.injEq, Prod.mk.injEq]
      exact and_congr eq_comm eq_comm
  | cons mapping rest ih =>
      rw [ofMappings, List.map_cons, List.forall₂_cons_left_iff]
      cases hvalue : data.at? mapping.field with
      | none => simp
      | some value =>
          cases hrest : ofMappings caseSensitive id data rest with
          | error e =>
              -- What follows does not go with any values.
              have hnone : ∀ others, ¬ List.Forall₂
                  (fun mapping value => data.at? mapping.field = some value) rest others := by
                intro others hothers
                exact nomatch hrest.symm.trans (ih.mpr ⟨rfl, hothers⟩)
              simp [hnone]
          | ok given =>
              obtain ⟨others, more⟩ := given
              obtain ⟨hcolumns, hmore⟩ := ih.mp hrest
              have honly : ∀ further, List.Forall₂
                  (fun mapping value => data.at? mapping.field = some value) rest further →
                    further = more := by
                intro further hfurther
                have hsame := hrest.symm.trans (ih.mpr ⟨rfl, hfurther⟩)
                exact (Prod.mk.inj (Except.ok.inj hsame)).2.symm
              simp only [Except.ok.injEq, Prod.mk.injEq]
              constructor
              · rintro ⟨rfl, rfl⟩
                exact ⟨by rw [hcolumns], value, more, rfl, hmore, rfl⟩
              · rintro ⟨rfl, head, further, hhead, hfurther, rfl⟩
                rw [honly further hfurther, ← Option.some.inj hhead, hcolumns]
                exact ⟨rfl, rfl⟩

/-- What a record gives, when it gives a row. -/
theorem ofRecord_eq_some_iff {row : Row} :
    ofRecord spec record = .ok (some row) ↔
      record.operation spec.defaultOperation spec.unsupportedAction = .ok (some row.op) ∧
        Binds spec record row.columns row.values := by
  obtain ⟨op, columns, values⟩ := row
  constructor
  · intro hrow
    simp only [ofRecord] at hrow
    split at hrow
    · exact nomatch hrow
    · exact nomatch hrow
    · rename_i resolved hop
      split at hrow
      · exact nomatch hrow
      · rename_i data hdata
        split at hrow
        · rename_i hempty
          split at hrow
          · exact nomatch hrow
          · rename_i fields hfields
            obtain rfl : data = .obj fields := by
              cases data <;> cases hfields
              rfl
            obtain ⟨rfl, rfl, rfl⟩ := Row.mk.inj (Option.some.inj (Except.ok.inj hrow))
            exact ⟨hop, binds_fields (List.isEmpty_iff.mp hempty) hdata⟩
        · rename_i hmapped
          split at hrow
          · exact nomatch hrow
          · rename_i hmappings
            obtain ⟨rfl, rfl, rfl⟩ := Row.mk.inj (Option.some.inj (Except.ok.inj hrow))
            obtain ⟨rfl, hvalues⟩ := ofMappings_eq_ok_iff.mp hmappings
            exact ⟨hop, .mapped (mt List.isEmpty_iff.mpr hmapped) hdata hvalues⟩
  · rintro ⟨hop, hbinds⟩
    simp only at hop hbinds
    cases hbinds with
    | mapped hmapped hdata hvalues =>
        simp only [ofRecord, hop, hdata, mt List.isEmpty_iff.mp hmapped, Bool.false_eq_true,
          if_false, ofMappings_eq_ok_iff.mpr ⟨rfl, hvalues⟩]
        rfl
    | unmapped hunmapped hdata =>
        simp only [ofRecord, hop, hdata, hunmapped, List.isEmpty_nil, if_true, Json.object?,
          ofFields]
        rfl

end Row

end TableRouting.JsonLines
