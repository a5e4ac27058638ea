import TableRouting.Config.Issue
import TableRouting.Json.Pointer
import TableRouting.Store.Spec

/-!
# Rows

A record becomes a row: an operation, columns and values. With field mappings the
columns are those of the mappings; without, they are the fields of the record's
row data, which must be an object.
-/

namespace TableRouting.JsonLines

structure Row where
  op : Operation
  columns : List String
  values : List Json
  deriving Repr

namespace Row

def ofFields (caseSensitive : Bool) (fields : List (String × Json)) :
    List String × List Json :=
  (fields.map fun (name, _) => columnName caseSensitive name, fields.map Prod.snd)

/-- The columns and values that mappings take from row data. The first mapping
whose field is missing decides the failure. -/
def ofMappings (caseSensitive : Bool) (id : String) (data : Json) :
    List FieldMapping → Except StoreError (List String × List Json)
  | [] => .ok ([], [])
  | mapping :: rest =>
    let field := mapping.field
    let column := mapping.column
    match data.at? field with
    | none =>
      .error (.constraint s!"Record '{id}' has no field '{field}' for column '{column}'")
    | some value =>
      match ofMappings caseSensitive id data rest with
      | .error e => .error e
      | .ok (columns, values) =>
        .ok (columnName caseSensitive column :: columns, value :: values)

/-- The row of a record; none when the record is to be dropped. -/
def ofRecord (spec : WriterSpec) (record : Record) : Except StoreError (Option Row) :=
  let id := record.id
  match record.operation spec.defaultOperation spec.unsupportedAction with
  | .error e => .error e
  | .ok none => .ok none
  | .ok (some op) =>
    match spec.changeLogFormat.rowValues? record with
    | none =>
      let format := spec.changeLogFormat.title
      .error (.constraint s!"Record '{id}' carries no row values for {format} change log")
    | some data =>
      if spec.mappings.isEmpty then
        match data.object? with
        | none => .error (.constraint s!"Record '{id}' is not an object")
        | some fields =>
          let (columns, values) := ofFields spec.caseSensitive fields
          .ok (some ⟨op, columns, values⟩)
      else
        match ofMappings spec.caseSensitive id data spec.mappings with
        | .error e => .error e
        | .ok (columns, values) => .ok (some ⟨op, columns, values⟩)

end Row

end TableRouting.JsonLines
