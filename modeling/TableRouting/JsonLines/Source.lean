import TableRouting.Config.Issue
import TableRouting.ErrorRecord.Log
import TableRouting.JsonLines.TableWriter
import TableRouting.Store.Basic

/-!
# The JSON-lines store

A store whose tables are files of JSON lines below a root directory. The
connection string is the path of the root, with or without the scheme `jsonl://`.
What a sink over this store changes, apart from files, is its session: whether
the source was closed, and the error records.
-/

namespace TableRouting.JsonLines

def scheme : List Char := "jsonl://".toList

/-- A text contains the mark that ends a scheme. -/
def hasScheme : List Char → Bool
  | ':' :: '/' :: '/' :: _ => true
  | _ :: rest => hasScheme rest
  | [] => false

def rootOf (connectionString : String) : Except ConfigIssue String :=
  let raw := Text.trimChars connectionString.toList
  let path := if scheme.isPrefixOf raw then raw.drop scheme.length else raw
  if path.isEmpty then
    .error ⟨"connection", "connection_string", "Connection string does not name a directory"⟩
  else if hasScheme path then
    let shown := String.ofList raw
    .error ⟨"connection", "connection_string", s!"Unsupported connection string '{shown}'"⟩
  else .ok (String.ofList path)

def tablePath (root schema table : String) : String :=
  Path.join root (TableFile.path ⟨schema, table⟩)

/-- What a sink over a JSON-lines store changes, apart from files. -/
structure Session where
  sourceClosed : Bool := false
  errors : ErrorLog := {}

/-- Computations in a session on a machine. -/
abbrev SessionT (m : Type → Type) := StateT Session m

variable {m : Type → Type} [Monad m] [Host m]

/-- Obtain a connection, unless the source was closed. -/
def connect (root : String) : SessionT m (Except StoreError Connection) := do
  if (← get).sourceClosed then pure (.error (.connection "Data source is closed"))
  else pure (.ok { root })

def route (record : Record) (cause : FailureCause) : SessionT m (Except WriteError Unit) :=
  modifyGet fun session =>
    let (result, errors) := session.errors.route record cause
    (result, { session with errors })

def writeGroup (writer : TableWriter) (records : List Record) (connection : Connection) :
    SessionT m (Except StoreError WriteReport × TableWriter × Connection) :=
  pure (writer.write connection records)

/-- The store at a root, with writers made to a specification. -/
def store (root : String) (spec : WriterSpec) : Store (SessionT m) Connection TableWriter where
  now := liftM (Host.now : m Nat)
  create table :=
    pure <| match TableWriter.create table spec with
      | .ok writer => .built writer
      | .error e => .refused e
  close writer := pure (.ok (), writer.close)
  connect := connect root
  savepoint connection := pure (.ok connection.savepoint, connection)
  rollbackTo savepoint connection := pure (connection.rollbackTo savepoint)
  commit connection := liftM (connection.commit : m _)
  rollback connection := pure (.ok (), connection.rollback)
  write := writeGroup
  closeSource := do
    modify fun session => { session with sourceClosed := true }
    pure (.ok ())

/-- Make the root directory of a configuration and the store below it. -/
def provide (spec : WriterSpec) (config : ConnectionConfig) :
    SessionT m (Except ConfigIssue (Store (SessionT m) Connection TableWriter)) := do
  match rootOf config.connectionString with
  | .error issue => pure (.error issue)
  | .ok root =>
    match ← liftM (Host.createDirAll root : m _) with
    | .ok () => pure (.ok (store root spec))
    | .error e =>
      let reason := e.message
      pure (.error ⟨"connection", "connection_string",
        s!"Cannot create directory '{root}': {reason}"⟩)

end TableRouting.JsonLines
