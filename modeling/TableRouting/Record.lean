import TableRouting.Json.Pointer

/-!
# Records

A record is what the sink writes: an identifier that names its place in the
source, a JSON body, and headers. Headers are kept sorted by name.
-/

namespace TableRouting

/-- The header that carries the code of a change-data-capture operation. -/
def operationHeader : String := "sdc.operation.type"

/-- A record of the source. -/
structure Record where
  id : String
  value : Json
  headers : List (String × String) := []
  deriving Repr, Inhabited

/-- The records handed to the sink in one call. -/
abbrev Batch := List Record

namespace Record

/-- The part of the body at a field name or a pointer. -/
def get? (record : Record) (path : String) : Option Json := record.value.at? path

def header? (record : Record) (name : String) : Option String := Json.lookup? name record.headers

def toJson (record : Record) : Json :=
  .obj [("id", .str record.id), ("value", record.value),
    ("headers", .obj (record.headers.map fun (name, value) => (name, .str value)))]

/-- Headers: an object whose values are all strings. -/
def headersOfJson? : Json → Option (List (String × String))
  | .obj fields => fields.mapM fun (name, value) => value.string?.map (name, ·)
  | _ => none

/-- Read a record from an object, or from an array with its fields in order.
Headers may be left out; fields that a record does not have are ignored. -/
def ofJson? : Json → Option Record
  | .obj fields => do
    let id ← (Json.lookup? "id" fields).bind Json.string?
    let value ← Json.lookup? "value" fields
    let headers ← match Json.lookup? "headers" fields with
      | some headers => headersOfJson? headers
      | none => some []
    pure ⟨id, value, headers⟩
  | .arr [.str id, value] => some ⟨id, value, []⟩
  | .arr [.str id, value, headers] => (headersOfJson? headers).map (⟨id, value, ·⟩)
  | _ => none

end Record

end TableRouting
