import TableRouting.Text.Cut

/-!
# Paths

A path is a text whose names are separated by slashes. Joining puts a relative
path below another one; the parent of a path leaves its last name out, not
counting empty names and single dots.
-/

namespace TableRouting.Path

def isAbsolute (path : String) : Bool := path.toList.head? == some '/'

/-- The steps of a path. Empty names say nothing. -/
def steps (path : String) : List String :=
  ((Text.cut '/' path.toList).filter (!·.isEmpty)).map String.ofList

/-- The steps of the path of a file. A slash at the end asks for a directory, as a
dot would. -/
def fileSteps (path : String) : List String :=
  if path.toList.getLast? = some '/' then steps path ++ ["."] else steps path

/-- The names of a path. A dot is a name only at the start of a relative path. -/
def names (path : String) : List String :=
  match isAbsolute path, steps path with
  | false, "." :: rest => "." :: rest.filter (· ≠ ".")
  | _, names => names.filter (· ≠ ".")

/-- A path put below another one. An absolute path stays as it is. -/
def join (base path : String) : String :=
  if isAbsolute path || base.isEmpty then path
  else if base.toList.getLast? = some '/' then base ++ path
  else base ++ "/" ++ path

def ofNames (absolute : Bool) (names : List String) : String :=
  (if absolute then "/" else "") ++ "/".intercalate names

/-- The path without its last name; the root and the empty path have no parent. -/
def parent? (path : String) : Option String :=
  let names := names path
  if names.isEmpty then none else some (ofNames (isAbsolute path) names.dropLast)

end TableRouting.Path
