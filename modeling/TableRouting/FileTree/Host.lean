import TableRouting.FileTree.Basic

/-!
# Hosts

What the sink needs from the machine that it runs on: a few file operations and a
clock. A `Machine` is a model of one, made of a file tree, a working directory and
a time that moves only when told to.
-/

namespace TableRouting

/-- Effects of the machine that a program runs on. -/
class Host (m : Type → Type) where
  /-- Make a directory and the missing ones above it. -/
  createDirAll : String → m (Except FileError Unit)
  /-- Append a text to a file, which is made if it is missing. -/
  append : String → String → m (Except FileError Unit)
  /-- Make a file empty, or make an empty file. -/
  truncate : String → m (Except FileError Unit)
  /-- The bytes of a file. -/
  read : String → m (Except FileError ByteArray)
  /-- Milliseconds since some moment in the past; never decreases. -/
  now : m Nat

/-- A model of a machine. -/
structure Machine where
  tree : FileTree := {}
  workingDirectory : Location := []
  time : Nat := 0

namespace Machine

def write (path : String) (change : String → String) : StateM Machine (Except FileError Unit) :=
  modifyGet fun machine =>
    match machine.tree.writeFile machine.workingDirectory path change with
    | .ok tree => (.ok (), { machine with tree })
    | .error e => (.error e, machine)

instance : Host (StateM Machine) where
  createDirAll path := modifyGet fun machine =>
    let (result, tree) := machine.tree.createDirAll machine.workingDirectory path
    (result, { machine with tree })
  append path text := write path (· ++ text)
  truncate path := write path fun _ => ""
  read path := do
    let machine ← get
    pure ((machine.tree.readFile machine.workingDirectory path).map String.toUTF8)
  now := do
    pure (← get).time

end Machine

end TableRouting
