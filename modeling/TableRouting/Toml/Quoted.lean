import TableRouting.Json.Token
import TableRouting.Toml.Lexical

/-!
# TOML strings

There are four kinds of strings: basic and literal, each on one line or on
several. Basic strings know escapes. In strings of several lines the line end
right after the opening is dropped, a line end is read as a single newline, and
up to two quotes may touch the closing ones from inside.
-/

namespace TableRouting.Toml

def escaped? (c : Char) : Option Char :=
  if c = 'b' then some '\x08'
  else if c = 't' then some '\t'
  else if c = 'n' then some '\n'
  else if c = 'f' then some '\x0c'
  else if c = 'r' then some '\r'
  else if c = '"' then some '"'
  else if c = '\\' then some '\\'
  else none

/-- The character with a hexadecimal code; a surrogate is none. -/
def codeChar? (digits : List Char) : Option Char := do
  let code ← digits.foldlM (fun n c => (Json.hexValue? c).map (16 * n + ·)) 0
  if code < 0xD800 ∨ (0xDFFF < code ∧ code < 0x110000) then some (Char.ofNat code) else none

/-- The character of an escape and the text after it. -/
def escape? : List Char → Option (Char × List Char)
  | 'u' :: a :: b :: c :: d :: rest => (codeChar? [a, b, c, d]).map (·, rest)
  | 'U' :: a :: b :: c :: d :: e :: f :: g :: h :: rest =>
    (codeChar? [a, b, c, d, e, f, g, h]).map (·, rest)
  | c :: rest => (escaped? c).map (·, rest)
  | [] => none

/-- The rest of a basic string on one line. The fuel bounds the characters read. -/
def basicFrom (fuel : Nat) (text : List Char) : List Char → Option (String × List Char) :=
  match fuel with
  | 0 => fun _ => none
  | fuel + 1 => fun
    | [] => none
    | c :: rest =>
      if c = '"' then some (String.ofList text.reverse, rest)
      else if c = '\\' then
        match escape? rest with
        | some (e, rest) => basicFrom fuel (e :: text) rest
        | none => none
      else if isTextChar c then basicFrom fuel (c :: text) rest
      else none

def literalFrom (text : List Char) : List Char → Option (String × List Char)
  | [] => none
  | c :: rest =>
    if c = '\'' then some (String.ofList text.reverse, rest)
    else if isTextChar c then literalFrom (c :: text) rest
    else none

/-- The closing of a string of several lines: three quotes, with up to two more
before them that belong to the text. -/
def closing? (quote : Char) (text rest : List Char) : Option (String × List Char) :=
  let run := (rest.takeWhile (· == quote)).length
  if run < 3 then none
  else
    let inner := min (run - 3) 2
    some (String.ofList (List.replicate inner quote ++ text).reverse, rest.drop (inner + 3))

/-- The rest of a literal string of several lines. -/
def literalLinesFrom (text : List Char) : List Char → Option (String × List Char)
  | [] => none
  | '\r' :: '\n' :: rest => literalLinesFrom ('\n' :: text) rest
  | c :: rest =>
    match closing? '\'' text (c :: rest) with
    | some result => some result
    | none => if c = '\n' ∨ isTextChar c then literalLinesFrom (c :: text) rest else none

/-- Skip the blanks and line ends after a backslash at the end of a line. -/
def skipBlanks : List Char → List Char
  | '\r' :: '\n' :: rest => skipBlanks rest
  | c :: rest => if c = '\n' ∨ isGap c then skipBlanks rest else c :: rest
  | [] => []

/-- The rest of a basic string of several lines. The fuel bounds the characters read. -/
def basicLinesFrom (fuel : Nat) (text : List Char) : List Char → Option (String × List Char) :=
  match fuel with
  | 0 => fun _ => none
  | fuel + 1 => fun
    | [] => none
    | '\r' :: '\n' :: rest => basicLinesFrom fuel ('\n' :: text) rest
    | c :: rest =>
      match closing? '"' text (c :: rest) with
      | some result => some result
      | none =>
        if c = '\\' then
          match newline? (skipGap rest) with
          | some rest => basicLinesFrom fuel text (skipBlanks rest)
          | none =>
            match escape? rest with
            | some (e, rest) => basicLinesFrom fuel (e :: text) rest
            | none => none
        else if c = '\n' ∨ isTextChar c then basicLinesFrom fuel (c :: text) rest
        else none

/-- Drop a line end right at the start. -/
private def dropFirstNewline (text : List Char) : List Char := (newline? text).getD text

/-- A string of one line, which is also a way to write a key. -/
def lineString? : List Char → Option (String × List Char)
  | '"' :: rest => basicFrom (rest.length + 1) [] rest
  | '\'' :: rest => literalFrom [] rest
  | _ => none

def string? : List Char → Option (String × List Char)
  | '"' :: '"' :: '"' :: rest =>
    let rest := dropFirstNewline rest
    basicLinesFrom (rest.length + 1) [] rest
  | '\'' :: '\'' :: '\'' :: rest => literalLinesFrom [] (dropFirstNewline rest)
  | text => lineString? text

end TableRouting.Toml
