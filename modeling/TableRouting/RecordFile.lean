import TableRouting.Json.Reader
import TableRouting.Record
import TableRouting.Text.Blank
import TableRouting.Text.Cut

/-!
# Record files

A record file holds one JSON value per line; blank lines say nothing. A value
shaped like a record is taken as that record, and any other value becomes the body
of a record that is named for its line. The first line that cannot be read decides
the failure.
-/

namespace TableRouting

/-- Why a record file cannot be read. Lines are numbered from one, blank ones
included. -/
inductive RecordFileError where
  /-- A line is not UTF-8. -/
  | notText
  | notJson (line : Nat)
  | notRecord (line : Nat)
  deriving DecidableEq, Repr

def RecordFileError.message : RecordFileError → String
  | .notText => "stream did not contain valid UTF-8"
  | .notJson line => s!"Line {line} is not valid JSON"
  | .notRecord line => s!"Line {line} is not a valid record"

namespace RecordFile

/-- The byte that ends a line. -/
def lineFeed : UInt8 := 10

/-- The byte that belongs to the line end when it stands right before it. -/
def carriageReturn : UInt8 := 13

/-- A line without the first byte of a two-byte line end. -/
def dropReturn (line : List UInt8) : List UInt8 :=
  if line.getLast? = some carriageReturn then line.dropLast else line

/-- The lines among the pieces between line feeds. The last piece is a line of its
own only if it holds something. -/
def linesOfPieces : List (List UInt8) → List (List UInt8)
  | [] => []
  | [last] => if last.isEmpty then [] else [last]
  | piece :: rest => dropReturn piece :: linesOfPieces rest

/-- The lines of a file without their ends. -/
def lines (bytes : List UInt8) : List (List UInt8) := linesOfPieces (Text.cut lineFeed bytes)

/-- An object with a textual identifier and a value is meant as a record. -/
def isRecordShaped (value : Json) : Bool :=
  ((value.get? "id").bind Json.string?).isSome && (value.get? "value").isSome

def ofValue (line : Nat) (value : Json) : Except RecordFileError Record :=
  if isRecordShaped value then
    match Record.ofJson? value with
    | some record => .ok record
    | none => .error (.notRecord line)
  else .ok { id := s!"line:{line}", value }

/-- The record on a line; none if the line is blank. -/
def ofLine (line : Nat) (bytes : List UInt8) : Except RecordFileError (Option Record) :=
  match String.fromUTF8? ⟨bytes.toArray⟩ with
  | none => .error .notText
  | some text =>
    if Text.isBlankText text then .ok none
    else
      match Json.parse? text with
      | none => .error (.notJson line)
      | some value => (ofValue line value).map some

/-- The records on lines, of which the first has a number. -/
def ofLines (line : Nat) : List (List UInt8) → Except RecordFileError (List Record)
  | [] => .ok []
  | bytes :: rest =>
    match ofLine line bytes with
    | .error e => .error e
    | .ok none => ofLines (line + 1) rest
    | .ok (some record) => (ofLines (line + 1) rest).map (record :: ·)

def records (bytes : ByteArray) : Except RecordFileError (List Record) :=
  ofLines 1 (lines bytes.toList)

end RecordFile

end TableRouting
