import TableRouting.Template.Error
import TableRouting.Text.Blank

/-!
# Table-name templates

A template is literal text interleaved with references: `$` and a name in braces.
The name is that of a body field, a pointer into the body, or, after `header:`,
that of a header. Compiling cuts the template into segments from left to right;
the first reference that is malformed decides the fault.
-/

namespace TableRouting

inductive Segment where
  | literal (text : String)
  | field (path : String)
  | header (name : String)
  deriving DecidableEq, Repr

structure Template where
  source : String
  segments : List Segment
  caseSensitive : Bool
  deriving DecidableEq, Repr

namespace Template

/-- The text that opens a reference occurs here. -/
def hasOpening : List Char → Bool
  | '$' :: '{' :: _ => true
  | _ :: rest => hasOpening rest
  | [] => false

def headerMark : List Char := "header:".toList

/-- The rest of a text after a mark, when it starts with the mark. -/
def afterMark? : List Char → List Char → Option (List Char)
  | [], text => some text
  | m :: mark, c :: text => if m = c then afterMark? mark text else none
  | _ :: _, [] => none

def reference (text : List Char) : Except TemplateFault Segment :=
  let name := Text.trimChars text
  if name.isEmpty then .error .emptyReference
  else if hasOpening name then .error .nested
  else
    match afterMark? headerMark name with
    | some header =>
      let header := Text.trimChars header
      if header.isEmpty then .error .namelessHeader else .ok (.header (String.ofList header))
    | none => .ok (.field (String.ofList name))

/-- A literal segment, unless it would be empty. -/
def literalSegment (text : List Char) : List Segment :=
  if text.isEmpty then [] else [.literal (String.ofList text)]

mutual

/-- Cut a text into segments, with the literal read so far kept last character
first. -/
def scanLiteral (literal : List Char) : List Char → Except TemplateFault (List Segment)
  | [] => .ok (literalSegment literal.reverse)
  | '$' :: '{' :: rest => scanReference literal [] rest
  | c :: rest => scanLiteral (c :: literal) rest

/-- Read a reference up to the next closing brace, then go on with literals. -/
def scanReference (literal text : List Char) : List Char → Except TemplateFault (List Segment)
  | [] => .error .unclosed
  | '}' :: rest =>
    match reference text.reverse with
    | .error fault => .error fault
    | .ok segment =>
      match scanLiteral [] rest with
      | .error fault => .error fault
      | .ok segments => .ok (literalSegment literal.reverse ++ segment :: segments)
  | c :: rest => scanReference literal (c :: text) rest

end

def segmentsOf (text : List Char) : Except TemplateFault (List Segment) :=
  match scanLiteral [] text with
  | .ok [] => .error .emptyTemplate
  | result => result

/-- Compile a template. Without case sensitivity the names it gives are
lower-cased. -/
def compile (source : String) (caseSensitive : Bool) : Except EvaluationError Template :=
  match segmentsOf source.toList with
  | .ok segments => .ok ⟨source, segments, caseSensitive⟩
  | .error fault => .error (.invalidTemplate source fault.message)

/-- A template without references gives the same name for every record. -/
def isConstant (template : Template) : Bool :=
  template.segments.all fun
    | .literal _ => true
    | _ => false

end Template

end TableRouting
