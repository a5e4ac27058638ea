import TableRouting.Json.Value
import TableRouting.Text.Cut

/-!
# JSON pointers

A pointer is a list of tokens with a slash before each; in a token `~1` stands
for a slash and `~0` for a tilde. A token names a field of an object or, as a
decimal number without leading zeros, a position of an array.
-/

namespace TableRouting.Json

/-- Undo the escapes of one token. A tilde before anything else stands for itself. -/
def unescapeToken : List Char → List Char
  | '~' :: '1' :: rest => '/' :: unescapeToken rest
  | '~' :: '0' :: rest => '~' :: unescapeToken rest
  | c :: rest => c :: unescapeToken rest
  | [] => []

def position? (token : List Char) : Option Nat :=
  if token.isEmpty ∨ !token.all Char.isDigit then none
  else if token.head? = some '0' ∧ 1 < token.length then none
  else some (Number.digitsValue token)

def step? (value : Json) (token : List Char) : Option Json :=
  match value with
  | .obj fields => lookup? (String.ofList token) fields
  | .arr items => (position? token).bind (items[·]?)
  | _ => none

def follow? : Json → List (List Char) → Option Json
  | value, [] => some value
  | value, token :: rest =>
    match step? value token with
    | some next => follow? next rest
    | none => none

/-- The value that a pointer names; a pointer starts with a slash. -/
def pointer? (value : Json) (path : List Char) : Option Json :=
  follow? value ((Text.cut '/' path).tail.map unescapeToken)

/-- The value at a path: a pointer when it starts with a slash, else the name of
a field. -/
def at? (value : Json) (path : String) : Option Json :=
  if path.toList.head? = some '/' then value.pointer? path.toList else value.get? path

end TableRouting.Json
