import Mathlib.Data.List.Nodup
import TableRouting.Config.Issue

/-!
# Mappings without issues

A configuration is accepted when each of its field mappings can be used by itself and
their columns, as the store knows them, are distinct.
-/

namespace TableRouting

/-- A mapping that can be used by itself. -/
structure FieldMapping.Usable (mapping : FieldMapping) : Prop where
  field : mapping.field.isEmpty = false
  column : mapping.column.isEmpty = false
  /-- The parameter expression has a place for the value. -/
  param : '?' ∈ mapping.paramValue.toList

namespace SinkConfig

variable {caseSensitive : Bool} {seen : List String} {mapping : FieldMapping}
  {rest : List FieldMapping}

/-- What is checked of one mapping before the others. -/
theorem mappingIssues_cons_eq_nil_iff :
    mappingIssues caseSensitive seen (mapping :: rest) = [] ↔
      mapping.Usable ∧ columnName caseSensitive mapping.column ∉ seen ∧
        mappingIssues caseSensitive (columnName caseSensitive mapping.column :: seen) rest =
          [] := by
  rw [mappingIssues]
  split
  · rename_i hunset
    constructor
    · intro hnil
      exact nomatch hnil
    · rintro ⟨⟨hfield, hcolumn, -⟩, -⟩
      rcases hunset with hempty | hempty
      · exact absurd hempty (Bool.eq_false_iff.mp hfield)
      · exact absurd hempty (Bool.eq_false_iff.mp hcolumn)
  · rename_i hset
    rw [not_or, Bool.not_eq_true, Bool.not_eq_true] at hset
    rw [List.append_eq_nil_iff, List.append_eq_nil_iff, and_assoc]
    refine and_congr ?_ (and_congr_left' ?_)
    · rw [ite_eq_left_iff]
      simp only [List.cons_ne_nil, imp_false, not_not, List.contains_iff_mem]
      exact ⟨fun hparam => ⟨hset.1, hset.2, hparam⟩, fun husable => husable.param⟩
    · rw [ite_eq_right_iff]
      simp only [List.cons_ne_nil, imp_false, List.contains_iff_mem]

theorem mappingIssues_eq_nil_iff {mappings : List FieldMapping} :
    mappingIssues caseSensitive seen mappings = [] ↔
      (∀ mapping ∈ mappings, mapping.Usable) ∧
      (mappings.map fun mapping => columnName caseSensitive mapping.column).Nodup ∧
      ∀ mapping ∈ mappings, columnName caseSensitive mapping.column ∉ seen := by
  induction mappings generalizing seen with
  | nil => simp [mappingIssues]
  | cons mapping rest ih =>
      rw [mappingIssues_cons_eq_nil_iff, ih, List.map_cons, List.nodup_cons, List.forall_mem_cons,
        List.forall_mem_cons]
      constructor
      · rintro ⟨husable, hnew, hrest, hnodup, hapart⟩
        refine ⟨⟨husable, hrest⟩, ⟨?_, hnodup⟩, hnew, ?_⟩
        · intro hcolumn
          obtain ⟨other, hother, hsame⟩ := List.mem_map.mp hcolumn
          exact hapart other hother (hsame ▸ List.mem_cons_self)
        · intro other hother hseen
          exact hapart other hother (List.mem_cons_of_mem _ hseen)
      · rintro ⟨⟨husable, hrest⟩, ⟨hfirst, hnodup⟩, hnew, hlater⟩
        refine ⟨husable, hnew, hrest, hnodup, ?_⟩
        intro other hother hseen
        rcases List.mem_cons.mp hseen with hsame | hseen
        · exact hfirst (List.mem_map.mpr ⟨other, hother, hsame⟩)
        · exact hlater other hother hseen

/-- The columns of an accepted configuration are distinct. -/
theorem nodup_columns {config : SinkConfig} (hvalid : config.issues = []) :
    (config.fieldMappings.map fun mapping =>
      columnName config.caseSensitive mapping.column).Nodup := by
  rw [issues, List.append_eq_nil_iff] at hvalid
  exact (mappingIssues_eq_nil_iff.mp hvalid.2).2.1

end SinkConfig

end TableRouting
