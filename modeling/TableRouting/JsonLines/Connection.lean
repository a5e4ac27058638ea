import TableRouting.FileTree.Host
import TableRouting.Grouping
import TableRouting.JsonLines.TableFile
import TableRouting.Store.Error

/-!
# Batch connections

A connection is a transaction log: the lines written in a batch wait in issue
order and are appended to their files by the commit. A savepoint is the number of
lines that wait. The commit takes the waiting lines in any case and goes through
the files in the order of their paths; it stops at the first that fails.
-/

namespace TableRouting.JsonLines

/-- A connection to a store with its root at a path. -/
structure Connection where
  root : String
  pending : Array (TableFile × String) := #[]

namespace Connection

def size (connection : Connection) : Nat := connection.pending.size

def append (connection : Connection) (file : TableFile) (line : String) : Connection :=
  { connection with pending := connection.pending.push (file, line) }

@[simp] theorem pending_append (connection : Connection) (file : TableFile) (line : String) :
    (connection.append file line).pending.toList = connection.pending.toList ++ [(file, line)] := by
  simp [append]

def savepoint (connection : Connection) : Nat := connection.size

def rollbackTo (connection : Connection) (savepoint : Nat) :
    Except StoreError Unit × Connection :=
  if savepoint ≤ connection.size then
    (.ok (), { connection with pending := connection.pending.take savepoint })
  else (.error (.rollback s!"Unknown savepoint {savepoint}"), connection)

def rollback (connection : Connection) : Connection :=
  { connection with pending := #[] }

/-- The lines of each file, in issue order, with the files in the order of their
paths. -/
def byFile (pending : List (TableFile × String)) : List (TableFile × List String) :=
  (Grouping.group pending).mergeSort fun first second => !second.1.precedes first.1

/-- The text that a list of lines adds to a file. -/
def linesText (lines : List String) : String :=
  String.join (lines.map (· ++ "\n"))

@[simp] theorem linesText_nil : linesText [] = "" := rfl

/-- Each line ends with a line break. -/
theorem linesText_cons (line : String) (rest : List String) :
    linesText (line :: rest) = line ++ "\n" ++ linesText rest := by
  rw [linesText, List.map_cons, String.join_cons]
  rfl

variable {m : Type → Type} [Monad m] [Host m]

def commitFile (root : String) (file : TableFile) (lines : List String) :
    m (Except StoreError Unit) := do
  let path := Path.join root file.path
  let failed (e : FileError) : Except StoreError Unit :=
    let reason := e.message
    .error (.commit s!"{path}: {reason}")
  match ← Host.createDirAll ((Path.parent? path).getD "") with
  | .error e => pure (failed e)
  | .ok () =>
    match ← Host.append path (linesText lines) with
    | .error e => pure (failed e)
    | .ok () => pure (.ok ())

def commitFiles (root : String) :
    List (TableFile × List String) → m (Except StoreError Unit)
  | [] => pure (.ok ())
  | (file, lines) :: rest => do
    match ← commitFile root file lines with
    | .error e => pure (.error e)
    | .ok () => commitFiles root rest

/-- Append every waiting line to its file. -/
def commit (connection : Connection) : m (Except StoreError Unit × Connection) := do
  let result ← commitFiles connection.root (byFile connection.pending.toList)
  pure (result, connection.rollback)

end Connection

end TableRouting.JsonLines
