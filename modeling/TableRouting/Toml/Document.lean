import TableRouting.Toml.Quoted
import TableRouting.Toml.Scalar
import TableRouting.Toml.Table

/-!
# TOML documents

A document is read line by line: blank lines, table headers and assignments.
Reading a value nests as deeply as the value does, up to a limit, and stops
within as many steps as the text has characters.
-/

namespace TableRouting.Toml

/-- Arrays and inline tables may be nested less deeply than this, and a dotted key
has fewer parts. -/
def nestingLimit : Nat := 80

def keyPart? (text : List Char) : Option (String × List Char) :=
  match text with
  | [] => none
  | c :: _ =>
    if c = '"' ∨ c = '\'' then lineString? text
    else
      let bare := text.takeWhile isBareChar
      if bare.isEmpty then none else some (String.ofList bare, text.drop bare.length)

/-- The parts of a dotted key and the text after it and its blanks. -/
def keyParts? : Nat → List Char → Option (List String × List Char)
  | 0, _ => none
  | fuel + 1, text => do
    let (part, rest) ← keyPart? (skipGap text)
    match skipGap rest with
    | '.' :: rest =>
      let (parts, rest) ← keyParts? fuel rest
      pure (part :: parts, rest)
    | rest => pure ([part], rest)

/-- A dotted key: the parts before the last, the last, and the text after it. -/
def key? (text : List Char) : Option (List String × String × List Char) := do
  let (parts, rest) ← keyParts? nestingLimit text
  if nestingLimit ≤ parts.length then none
  else
    let last ← parts.getLast?
    pure (parts.dropLast, last, rest)

mutual

/-- A value and the text after it. `nesting` is how deep it stands. -/
def value? (fuel nesting : Nat) (text : List Char) : Option (Json × List Char) :=
  match fuel with
  | 0 => none
  | fuel + 1 =>
    match text with
    | '"' :: _ => (string? text).map fun (s, rest) => (.str s, rest)
    | '\'' :: _ => (string? text).map fun (s, rest) => (.str s, rest)
    | '[' :: rest =>
      if nesting + 1 < nestingLimit then items? fuel (nesting + 1) [] rest else none
    | '{' :: rest =>
      if nesting + 1 < nestingLimit then
        match skipGap rest with
        | '}' :: rest => some (.obj [], rest)
        | rest => pairs? fuel (nesting + 1) [] rest
      else none
    | _ => scalar? text

/-- The rest of an array. A comma may stand after the last item. -/
def items? (fuel nesting : Nat) (items : List Json) (text : List Char) :
    Option (Json × List Char) :=
  match fuel with
  | 0 => none
  | fuel + 1 =>
    match skipLines false text with
    | ']' :: rest => some (.arr items.reverse, rest)
    | text =>
      match value? fuel nesting text with
      | none => none
      | some (item, rest) =>
        match skipLines false rest with
        | ',' :: rest => items? fuel nesting (item :: items) rest
        | ']' :: rest => some (.arr (item :: items).reverse, rest)
        | _ => none

/-- The rest of an inline table, which stands on one line and has at least one
entry left. -/
def pairs? (fuel nesting : Nat) (entries : Entries) (text : List Char) :
    Option (Json × List Char) :=
  match fuel with
  | 0 => none
  | fuel + 1 =>
    match key? text with
    | some (path, key, '=' :: rest) =>
      match value? fuel nesting (skipGap rest) with
      | none => none
      | some (json, rest) =>
        match assign json key .header true path entries with
        | none => none
        | some entries =>
          match skipGap rest with
          | ',' :: rest => pairs? fuel nesting entries rest
          | '}' :: rest => some (.obj (entriesJson entries), rest)
          | _ => none
    | _ => none

end

/-- A document being read: its tables and the header that assignments go to. -/
structure Document where
  root : Entries := []
  header : List String := []

def Document.assignment? (document : Document) (text : List Char) :
    Option (Document × List Char) := do
  let (path, key, rest) ← key? text
  match rest with
  | '=' :: rest =>
    let (json, rest) ← value? (2 * rest.length + 2) 0 (skipGap rest)
    let rest ← lineEnd? rest
    let root ← atHeader (assign json key .header true path) document.header document.root
    pure ({ document with root }, rest)
  | _ => none

/-- One table header, up to the end of its line, from after its first bracket. -/
def Document.header? (document : Document) : List Char → Option (Document × List Char)
  | '[' :: text => do
    let (path, key, rest) ← key? text
    match rest with
    | ']' :: ']' :: rest =>
      let rest ← lineEnd? rest
      let root ← atHeader (appendTable key) path document.root
      pure ({ root, header := path ++ [key] }, rest)
    | _ => none
  | text => do
    let (path, key, rest) ← key? text
    match rest with
    | ']' :: rest =>
      let rest ← lineEnd? rest
      let root ← atHeader (defineTable key) path document.root
      pure ({ root, header := path ++ [key] }, rest)
    | _ => none

def Document.lines? (document : Document) : Nat → List Char → Option Document
  | 0, _ => none
  | fuel + 1, text =>
    match skipGap text with
    | [] => some document
    | c :: rest =>
      let line :=
        if c = '[' then document.header? rest
        else if c = '#' ∨ c = '\n' ∨ c = '\r' then (lineEnd? (c :: rest)).map (document, ·)
        else document.assignment? (c :: rest)
      match line with
      | some (document, rest) => lines? document fuel rest
      | none => none

/-- The value of a whole document; a byte order mark may precede it. -/
def parse? (text : String) : Option Json :=
  let chars := match text.toList with
    | '\uFEFF' :: rest => rest
    | chars => chars
  (Document.lines? {} (chars.length + 1) chars).map fun document =>
    .obj (entriesJson document.root)

end TableRouting.Toml
