import Std.Data.HashMap
import TableRouting.FileTree.Path

/-!
# File trees

A tree of directories and text files, addressed by the lists of names from the
root, with the operations that the store needs and the failures that they have on
a POSIX system. A path is followed step by step: every name but the last must be
that of a directory.
-/

namespace TableRouting

/-- Why a file operation failed. -/
inductive FileError where
  | notFound
  | exists
  | notDirectory
  | isDirectory
  | nameTooLong
  | nulInName
  /-- A failure with a text of its own. -/
  | other (detail : String)
  deriving DecidableEq, Repr

def FileError.message : FileError → String
  | .notFound => "No such file or directory (os error 2)"
  | .exists => "File exists (os error 17)"
  | .notDirectory => "Not a directory (os error 20)"
  | .isDirectory => "Is a directory (os error 21)"
  | .nameTooLong => "File name too long (os error 36)"
  | .nulInName => "file name contained an unexpected NUL byte"
  | .other detail => detail

inductive FileEntry where
  | file (text : String)
  | directory
  deriving DecidableEq, Repr

/-- The place of an entry: the names from the root. -/
abbrev Location := List String

/-- Files and directories below a root, which is a directory and always there. -/
structure FileTree where
  entries : Std.HashMap Location FileEntry := {}

namespace FileTree

def get? (tree : FileTree) (location : Location) : Option FileEntry :=
  if location = [] then some .directory else tree.entries[location]?

def set (tree : FileTree) (location : Location) (entry : FileEntry) : FileTree :=
  { tree with entries := tree.entries.insert location entry }

def text? (tree : FileTree) (location : Location) : Option String :=
  match tree.get? location with
  | some (.file text) => some text
  | _ => none

@[simp] theorem get?_root (tree : FileTree) : tree.get? [] = some .directory := rfl

theorem get?_set_self (tree : FileTree) {location : Location} (h : location ≠ [])
    (entry : FileEntry) : (tree.set location entry).get? location = some entry := by
  simp [get?, set, h]

theorem get?_set_of_ne (tree : FileTree) {location other : Location} (h : other ≠ location)
    (entry : FileEntry) : (tree.set location entry).get? other = tree.get? other := by
  by_cases hroot : other = []
  · simp [get?, hroot]
  · simp [get?, set, hroot, Std.HashMap.getElem?_insert, Ne.symm h]

def nameLimit : Nat := 255

/-- The most bytes in a path, its end included. -/
def pathLimit : Nat := 4096

/-- Follow steps from a location. The last step need not exist; the answer is
where it would be. -/
def follow (tree : FileTree) (here : Location) : List String → Except FileError Location
  | [] => .ok here
  | step :: rest =>
    match tree.get? here with
    | none => .error .notFound
    | some (.file _) => .error .notDirectory
    | some .directory =>
      if nameLimit < step.utf8ByteSize then .error .nameTooLong
      else if step = "." then tree.follow here rest
      else if step = ".." then tree.follow here.dropLast rest
      else tree.follow (here ++ [step]) rest

/-- Where a path leads, seen from a working directory. -/
def locate (tree : FileTree) (workingDirectory : Location) (absolute : Bool)
    (steps : List String) : Except FileError Location :=
  tree.follow (if absolute then [] else workingDirectory) steps

/-- Steps that name an entry, as opposed to one that leads there by dots. -/
def endsInName (steps : List String) : Bool :=
  match steps.getLast? with
  | some step => step ≠ "." ∧ step ≠ ".."
  | none => false

def makeDirectory (tree : FileTree) (workingDirectory : Location) (absolute : Bool)
    (steps : List String) : Except FileError FileTree :=
  match tree.locate workingDirectory absolute steps with
  | .error e => .error e
  | .ok location =>
    if !endsInName steps ∨ (tree.get? location).isSome then .error .exists
    else .ok (tree.set location .directory)

def isDirectory (tree : FileTree) (workingDirectory : Location) (absolute : Bool)
    (steps : List String) : Bool :=
  match tree.locate workingDirectory absolute steps with
  | .ok location => tree.get? location == some .directory
  | .error _ => false

/-- Make the first of several directories, of which each stands in the next one. A
directory is made before those in it, and one that is there already will do. What
was made stays when a later one fails. -/
def makeDirectories (workingDirectory : Location) (absolute : Bool) :
    List (List String) → FileTree → Except FileError Unit × FileTree
  | [], tree => (.ok (), tree)
  | steps :: outer, tree =>
    match tree.makeDirectory workingDirectory absolute steps with
    | .ok tree => (.ok (), tree)
    | .error .notFound =>
      match makeDirectories workingDirectory absolute outer tree with
      | (.error e, tree) => (.error e, tree)
      | (.ok (), tree) =>
        match tree.makeDirectory workingDirectory absolute steps with
        | .ok tree => (.ok (), tree)
        | .error e =>
          if tree.isDirectory workingDirectory absolute steps then (.ok (), tree)
          else (.error e, tree)
    | .error e =>
      if tree.isDirectory workingDirectory absolute steps then (.ok (), tree) else (.error e, tree)

/-- The lists that leave out one more name at the end each time, down to one name. -/
def outerPaths (names : List String) : List (List String) :=
  ((List.range names.length).reverse.map names.take).filter (!·.isEmpty)

/-- What no operation accepts as a path. -/
def pathFault? (path : String) : Option FileError :=
  if path.toList.contains '\x00' then some .nulInName
  else if pathLimit ≤ path.utf8ByteSize then some .nameTooLong
  else if path.isEmpty then some .notFound
  else none

/-- Make a directory and every directory above it that is missing. -/
def createDirAll (tree : FileTree) (workingDirectory : Location) (path : String) :
    Except FileError Unit × FileTree :=
  if path.isEmpty then (.ok (), tree)
  else
    match pathFault? path with
    | some e => (.error e, tree)
    | none =>
      makeDirectories workingDirectory (Path.isAbsolute path)
        (Path.steps path :: outerPaths (Path.names path)) tree

/-- Where the file of a path is or would be. -/
def locateFile (tree : FileTree) (workingDirectory : Location) (path : String) :
    Except FileError Location :=
  match pathFault? path with
  | some e => .error e
  | none => tree.locate workingDirectory (Path.isAbsolute path) (Path.fileSteps path)

def writeFile (tree : FileTree) (workingDirectory : Location) (path : String)
    (change : String → String) : Except FileError FileTree :=
  match tree.locateFile workingDirectory path with
  | .error e => .error e
  | .ok location =>
    match tree.get? location with
    | some .directory => .error .isDirectory
    | some (.file text) => .ok (tree.set location (.file (change text)))
    | none => .ok (tree.set location (.file (change "")))

def readFile (tree : FileTree) (workingDirectory : Location) (path : String) :
    Except FileError String :=
  match tree.locateFile workingDirectory path with
  | .error e => .error e
  | .ok location =>
    match tree.get? location with
    | some .directory => .error .isDirectory
    | some (.file text) => .ok text
    | none => .error .notFound

end FileTree

end TableRouting
