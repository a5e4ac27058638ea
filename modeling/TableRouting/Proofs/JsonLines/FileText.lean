import TableRouting.JsonLines.Connection
import TableRouting.JsonLines.Statement
import TableRouting.Proofs.Json.Printer
import TableRouting.Proofs.Json.RoundTrip
import TableRouting.Proofs.Text.Cutting

/-!
# The text of a table file

The lines of a file stand one after the other, and each ends with a line break.  A line has
no other, so that the text falls into its lines again.  What is read from a line is an object
of its six fields, and these tell lines apart: two lists of lines have one text only if they
are the same list.
-/

namespace TableRouting.JsonLines

namespace Connection

/-- A text falls into the lines that it is made of, and nothing stands behind the last. -/
theorem cut_linesText {lines : List String} (hsingle : ∀ line ∈ lines, '\n' ∉ line.toList) :
    Text.cut '\n' (linesText lines).toList = lines.map String.toList ++ [[]] := by
  induction lines with
  | nil => rw [linesText_nil, String.toList_empty, Text.cut_nil, List.map_nil, List.nil_append]
  | cons line rest ih =>
      obtain ⟨hline, hrest⟩ := List.forall_mem_cons.mp hsingle
      have htext : (linesText (line :: rest)).toList =
          line.toList ++ '\n' :: (linesText rest).toList := by
        rw [linesText_cons, String.toList_append, String.toList_append, List.append_assoc]
        rfl
      rw [htext, Text.cut_append, Text.cut_of_not_mem hline, ih hrest]
      rfl

end Connection

namespace TableLine

/-- A line breaks only where it ends. -/
theorem newline_not_mem_render (line : TableLine) : '\n' ∉ line.render.toList :=
  Json.newline_not_mem_render line.toJson

/-- A line as an object of its fields, which are kept in the order of their keys. -/
def value (line : TableLine) : Json :=
  .obj [("columns", .arr (line.columns.map .str)), ("op", .str line.op.label),
    ("params", .arr (line.params.map .str)), ("rows", .arr (line.rows.map .arr)),
    ("schema", .str line.schema), ("table", .str line.table)]

def Readable (line : TableLine) : Prop :=
  ∀ row ∈ line.rows, ∀ value ∈ row, value.Readable (Json.nestingLimit - 3)

theorem readable_texts (texts : List String) :
    (Json.arr (texts.map .str)).Readable (Json.nestingLimit - 1) := by
  apply Json.Readable.arr
  intro item hitem
  obtain ⟨text, -, rfl⟩ := List.mem_map.mp hitem
  exact .str _ text

theorem readable_rows {line : TableLine} (hreadable : line.Readable) :
    (Json.arr (line.rows.map .arr)).Readable (Json.nestingLimit - 1) := by
  apply Json.Readable.arr
  intro item hitem
  obtain ⟨row, hrow, rfl⟩ := List.mem_map.mp hitem
  exact .arr (hreadable row hrow)

/-- A line is read as the object of its fields. -/
theorem parse?_render {line : TableLine} (hreadable : line.Readable) :
    Json.parse? line.render = some line.value := by
  have hvalues : ∀ field ∈ [("op", Json.str line.op.label), ("schema", .str line.schema),
      ("table", .str line.table), ("columns", .arr (line.columns.map .str)),
      ("params", .arr (line.params.map .str)), ("rows", .arr (line.rows.map .arr))],
      field.2.Readable (Json.nestingLimit - 1) := by
    simp only [List.forall_mem_cons]
    exact ⟨.str _ _, .str _ _, .str _ _, readable_texts _, readable_texts _,
      readable_rows hreadable, List.forall_mem_nil _⟩
  rw [render, toJson, Json.parse?_obj hvalues (Nat.le_refl _), value]
  simp +decide only [Json.sortFields, Json.insertSorted, List.foldl_cons, List.foldl_nil, if_true,
    if_false]

/-- Lines are told apart by their fields. -/
theorem value_injective : Function.Injective value := by
  intro first second hvalue
  obtain ⟨op, schema, table, columns, params, rows⟩ := first
  obtain ⟨op', schema', table', columns', params', rows'⟩ := second
  have hstr : Function.Injective Json.str := fun _ _ => Json.str.inj
  have harr : Function.Injective Json.arr := fun _ _ => Json.arr.inj
  simp only [value, Json.obj.injEq, List.cons.injEq, Prod.mk.injEq, true_and, and_true,
    Json.arr.injEq, Json.str.injEq, hstr.list_map.eq_iff, harr.list_map.eq_iff] at hvalue
  obtain ⟨rfl, hop, rfl, rfl, rfl, rfl⟩ := hvalue
  cases op <;> cases op' <;> first | rfl | simp [Operation.label] at hop

end TableLine

/-- What is read from the lines of a text, one after the other. -/
def readLines (text : String) : List (Option Json) :=
  (Text.cut '\n' text.toList).dropLast.map fun piece => Json.parse? (String.ofList piece)

/-- Every line of a file is read as the object of its fields. -/
theorem readLines_linesText {lines : List TableLine} (hreadable : ∀ line ∈ lines, line.Readable) :
    readLines (Connection.linesText (lines.map TableLine.render)) =
      lines.map fun line => some line.value := by
  have hsingle : ∀ text ∈ lines.map TableLine.render, '\n' ∉ text.toList :=
    List.forall_mem_map.mpr fun line _ => line.newline_not_mem_render
  rw [readLines, Connection.cut_linesText hsingle, List.dropLast_concat, List.map_map,
    List.map_map]
  apply List.map_congr_left
  intro line hline
  simpa using TableLine.parse?_render (hreadable line hline)

/-- Two lists of lines have one text only if they are the same. -/
theorem linesText_injective {lines others : List TableLine}
    (hlines : ∀ line ∈ lines, line.Readable) (hothers : ∀ line ∈ others, line.Readable)
    (htext : Connection.linesText (lines.map TableLine.render) =
      Connection.linesText (others.map TableLine.render)) : lines = others := by
  have hvalues : lines.map (fun line => some line.value) =
      others.map fun line => some line.value := by
    rw [← readLines_linesText hlines, ← readLines_linesText hothers, htext]
  have hinjective : Function.Injective fun line : TableLine => some line.value :=
    fun _ _ hsome => TableLine.value_injective (Option.some.inj hsome)
  exact hinjective.list_map hvalues

end TableRouting.JsonLines
