import TableRouting.Record
import TableRouting.Store.Error
import TableRouting.Text.Blank

/-!
# Operations of change records

A record is written by one of four operations. A header may carry the code of
the operation; a record without the header gets the default. What to do with a
code that stands for no operation is a setting. Where the column values of a
change record lie in its body depends on the format of the change log.
-/

namespace TableRouting

/-- How a row is written. -/
inductive Operation where
  | insert
  | update
  | delete
  | upsert
  deriving DecidableEq, Hashable, Repr, Inhabited

namespace Operation

def ofCode? (code : Int) : Option Operation :=
  if code = 1 then some .insert
  else if code = 2 then some .delete
  else if code = 3 then some .update
  else if code = 4 then some .upsert
  else none

def code : Operation → Nat
  | .insert => 1
  | .delete => 2
  | .update => 3
  | .upsert => 4

def label : Operation → String
  | .insert => "insert"
  | .update => "update"
  | .delete => "delete"
  | .upsert => "upsert"

@[simp] theorem ofCode?_code (op : Operation) : ofCode? op.code = some op := by
  cases op <;> rfl

/-- An integer in decimal digits with an optional sign. -/
def integer? (text : List Char) : Option Int :=
  let (negative, digits) := match text with
    | '-' :: digits => (true, digits)
    | '+' :: digits => (false, digits)
    | digits => (false, digits)
  if digits.isEmpty ∨ !digits.all Char.isDigit then none
  else
    let magnitude : Int := Json.Number.digitsValue digits
    some (if negative then -magnitude else magnitude)

/-- The operation that a header text asks for. -/
def ofText? (text : String) : Option Operation :=
  (integer? (Text.trimChars text.toList)).bind ofCode?

end Operation

/-- What happens to a record whose code stands for no operation. -/
inductive UnsupportedAction where
  /-- The record is dropped. -/
  | discard
  /-- The record fails. -/
  | sendToError
  /-- The default operation is applied. -/
  | useDefault
  deriving DecidableEq, Repr

inductive ChangeLogFormat where
  | none
  | msSql
  | oracle
  | mySqlBinLog
  | mongoOpLog
  deriving DecidableEq, Repr

namespace ChangeLogFormat

def title : ChangeLogFormat → String
  | .none => "None"
  | .msSql => "MsSql"
  | .oracle => "Oracle"
  | .mySqlBinLog => "MySqlBinLog"
  | .mongoOpLog => "MongoOpLog"

/-- The value that holds the column values of a record. -/
def rowValues? (format : ChangeLogFormat) (record : Record) : Option Json :=
  match format with
  | .none | .msSql | .oracle => some record.value
  | .mySqlBinLog => record.value.get? "Data"
  | .mongoOpLog => record.value.get? "o"

end ChangeLogFormat

/-- The operation of a record; none when the record is to be dropped. -/
def Record.operation (record : Record) (default : Operation) (unsupported : UnsupportedAction) :
    Except StoreError (Option Operation) :=
  match record.header? operationHeader with
  | none => .ok (some default)
  | some text =>
    match Operation.ofText? text, unsupported with
    | some op, _ => .ok (some op)
    | none, .discard => .ok none
    | none, .useDefault => .ok (some default)
    | none, .sendToError =>
      let id := record.id
      .error (.unsupportedOperation s!"operation code '{text}' on record '{id}'")

end TableRouting
