import TableRouting.Record
import TableRouting.Template.Basic
import TableRouting.Text.Lowercase

/-!
# Table names

A template gives a table name for a record by putting the values of its
references in their places. The values are not read again, whatever they hold.
The name is trimmed, must not be empty, and is lower-cased unless the template
is case-sensitive.
-/

namespace TableRouting.Template

/-- The text of a scalar; other values have none. -/
def scalarText? : Json → Option String
  | .str s => some s
  | .num n => some (String.ofList n.text)
  | .bool b => some (if b then "true" else "false")
  | _ => none

/-- The text that a segment contributes for a record. -/
def segmentText (record : Record) : Segment → Except EvaluationError String
  | .literal text => .ok text
  | .field path =>
    match record.get? path with
    | none => .error (.missingField path)
    | some value =>
      match scalarText? value with
      | none => .error (.notScalar path)
      | some text => .ok text
  | .header name =>
    match record.header? name with
    | none => .error (.missingHeader name)
    | some text => .ok text

/-- The texts of segments, one after the other. The leftmost failure decides. -/
def substitute (record : Record) : List Segment → Except EvaluationError String
  | [] => .ok ""
  | segment :: rest =>
    match segmentText record segment with
    | .error e => .error e
    | .ok text =>
      match substitute record rest with
      | .error e => .error e
      | .ok more => .ok (text ++ more)

def resolve (template : Template) (record : Record) : Except EvaluationError String :=
  match substitute record template.segments with
  | .error e => .error e
  | .ok text =>
    let name := Text.trim text
    if name.isEmpty then .error (.emptyTableName template.source)
    else .ok (if template.caseSensitive then name else Text.lower name)

end TableRouting.Template
