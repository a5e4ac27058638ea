import TableRouting.FileTree.Path

/-!
# Table files

Each table of a JSON-lines store is one file, below a directory named for the
schema unless the schema is empty. Names that would lead to another directory are
refused.
-/

namespace TableRouting.JsonLines

/-- The schema and table that a file holds. -/
structure TableFile where
  schema : String
  table : String
  deriving DecidableEq, Hashable, Repr

namespace TableFile

def fileName (table : String) : String := table ++ ".jsonl"

/-- The path of the file below the root of the store. -/
def path (file : TableFile) : String :=
  if file.schema.isEmpty then fileName file.table
  else Path.join file.schema (fileName file.table)

/-- Files are committed in the order of their paths, name by name. -/
def precedes (first second : TableFile) : Bool :=
  Path.names first.path < Path.names second.path

end TableFile

inductive NameFault where
  | empty
  | notAName (name : String)
  | separator (name : String)
  deriving DecidableEq, Repr

def NameFault.message : NameFault → String
  | .empty => "name is empty"
  | .notAName name => s!"'{name}' is not a valid name"
  | .separator name => s!"'{name}' contains a path separator"

/-- Two dots in a row occur in a text. -/
def hasDoubleDot : List Char → Bool
  | '.' :: '.' :: _ => true
  | _ :: rest => hasDoubleDot rest
  | [] => false

def isSeparator (c : Char) : Bool := c == '/' || c == '\\' || c == '\x00'

def nameFault? (name : String) : Option NameFault :=
  if name.isEmpty then some .empty
  else if name = "." ∨ hasDoubleDot name.toList then some (.notAName name)
  else if name.toList.any isSeparator then some (.separator name)
  else none

end TableRouting.JsonLines
