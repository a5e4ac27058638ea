/-!
# Lexical rules of TOML

Line ends, gaps, comments and the characters that may stand in them. A carriage
return is part of a line end or an error; control characters other than the tab
are errors everywhere.
-/

namespace TableRouting.Toml

def isGap (c : Char) : Bool := c == ' ' || c == '\t'

/-- A character that may stand in comments and literal strings. -/
def isTextChar (c : Char) : Bool := c == '\t' || (0x20 ≤ c.val && c.val != 0x7F)

def isBareChar (c : Char) : Bool := c.isAlphanum || c == '-' || c == '_'

def skipGap (text : List Char) : List Char := text.dropWhile isGap

/-- The text after a line end. -/
def newline? : List Char → Option (List Char)
  | '\n' :: rest => some rest
  | '\r' :: '\n' :: rest => some rest
  | _ => none

/-- The text after the rest of a line that holds no more than a comment. The end
of the text ends a line too. -/
def lineEnd? (text : List Char) : Option (List Char) :=
  let rest := match skipGap text with
    | '#' :: comment => comment.dropWhile isTextChar
    | rest => rest
  if rest.isEmpty then some [] else newline? rest

/-- Skip blanks, line ends and comments. A character that a comment may not hold
is left in place. -/
def skipLines (inComment : Bool) : List Char → List Char
  | [] => []
  | '\r' :: '\n' :: rest => skipLines false rest
  | c :: rest =>
    if c = '\n' then skipLines false rest
    else if inComment then
      if isTextChar c then skipLines true rest else c :: rest
    else if isGap c then skipLines false rest
    else if c = '#' then skipLines true rest
    else c :: rest

end TableRouting.Toml
