import TableRouting.Json.Value

/-!
# Tokens of JSON texts

The scanner is a machine that reads one character at a time, so a run over a
text is a run over its first part followed by a run over the rest. A text that
stops inside a string, holds a bare control character or a lone surrogate
escape, or spells a word that is no literal has no tokens.
-/

namespace TableRouting.Json

/-- The tokens of a JSON text. A literal value is one token. -/
inductive Token where
  | openArray
  | closeArray
  | openObject
  | closeObject
  | comma
  | colon
  | literal (value : Json)
  deriving Repr

/-- Where the scanner stands. Texts being read are kept last character first. -/
inductive Scan where
  /-- Between tokens. -/
  | between
  /-- Inside a bare word: a number, `true`, `false` or `null`. -/
  | word (text : List Char)
  /-- Inside a string. -/
  | string (text : List Char)
  /-- After a backslash. -/
  | escape (text : List Char)
  /-- Inside a four-digit escape, with the digits still owed and the value so far.
  `high` is the first half of a surrogate pair, when one was read. -/
  | unicode (text : List Char) (high : Option Nat) (owed : Nat) (value : Nat)
  /-- After the first half of a surrogate pair: a backslash must follow. -/
  | halfPair (text : List Char) (high : Nat)
  /-- After that backslash: a `u` must follow. -/
  | halfPairEscape (text : List Char) (high : Nat)
  deriving Repr

def isGap (c : Char) : Bool := c == ' ' || c == '\n' || c == '\t' || c == '\r'

def isWordChar (c : Char) : Bool :=
  c.isAlphanum || c == '-' || c == '+' || c == '.'

/-- The value that a bare word spells. -/
def wordValue? (word : List Char) : Option Json :=
  if word = ['n', 'u', 'l', 'l'] then some .null
  else if word = ['t', 'r', 'u', 'e'] then some (.bool true)
  else if word = ['f', 'a', 'l', 's', 'e'] then some (.bool false)
  else (Number.ofChars? word).map .num

def punctuation? (c : Char) : Option Token :=
  if c = '[' then some .openArray
  else if c = ']' then some .closeArray
  else if c = '{' then some .openObject
  else if c = '}' then some .closeObject
  else if c = ',' then some .comma
  else if c = ':' then some .colon
  else none

/-- The character that a single-letter escape stands for. -/
def escaped? (c : Char) : Option Char :=
  if c = '"' then some '"'
  else if c = '\\' then some '\\'
  else if c = '/' then some '/'
  else if c = 'b' then some '\x08'
  else if c = 'f' then some '\x0c'
  else if c = 'n' then some '\n'
  else if c = 'r' then some '\r'
  else if c = 't' then some '\t'
  else none

/-- The value of a hexadecimal digit of either case. -/
def hexValue? (c : Char) : Option Nat :=
  if '0' ≤ c ∧ c ≤ '9' then some (c.toNat - '0'.toNat)
  else if 'a' ≤ c ∧ c ≤ 'f' then some (c.toNat - 'a'.toNat + 10)
  else if 'A' ≤ c ∧ c ≤ 'F' then some (c.toNat - 'A'.toNat + 10)
  else none

/-- The state after a complete four-digit escape. Only the two halves of a
surrogate pair, in order, stand for one character together. -/
def endUnicode (text : List Char) (high : Option Nat) (unit : Nat) : Option Scan :=
  let isLow := 0xDC00 ≤ unit ∧ unit ≤ 0xDFFF
  match high with
  | some h =>
    if isLow then
      some (.string (Char.ofNat (0x10000 + (h - 0xD800) * 0x400 + (unit - 0xDC00)) :: text))
    else none
  | none =>
    if 0xD800 ≤ unit ∧ unit ≤ 0xDBFF then some (.halfPair text unit)
    else if isLow then none
    else some (.string (Char.ofNat unit :: text))

def Scan.stepBetween (c : Char) : Option (Scan × List Token) :=
  if isGap c then some (.between, [])
  else if c = '"' then some (.string [], [])
  else if isWordChar c then some (.word [c], [])
  else (punctuation? c).map fun token => (.between, [token])

/-- One character: the state after it and the tokens that it ends, or none where
no text goes on like this. -/
def Scan.step : Scan → Char → Option (Scan × List Token)
  | .between, c => stepBetween c
  | .word text, c =>
    if isWordChar c then some (.word (c :: text), [])
    else do
      let value ← wordValue? text.reverse
      let (state, tokens) ← stepBetween c
      pure (state, .literal value :: tokens)
  | .string text, c =>
    if c = '"' then some (.between, [.literal (.str (String.ofList text.reverse))])
    else if c = '\\' then some (.escape text, [])
    else if c.val < 0x20 then none
    else some (.string (c :: text), [])
  | .escape text, c =>
    if c = 'u' then some (.unicode text none 4 0, [])
    else (escaped? c).map fun e => (.string (e :: text), [])
  | .unicode text high owed value, c => do
    let digit ← hexValue? c
    let value := 16 * value + digit
    if owed ≤ 1 then (endUnicode text high value).map (·, [])
    else pure (.unicode text high (owed - 1) value, [])
  | .halfPair text high, c => if c = '\\' then some (.halfPairEscape text high, []) else none
  | .halfPairEscape text high, c =>
    if c = 'u' then some (.unicode text (some high) 4 0, []) else none

/-- The tokens that the end of the text ends. -/
def Scan.finish? : Scan → Option (List Token)
  | .between => some []
  | .word text => (wordValue? text.reverse).map fun value => [.literal value]
  | _ => none

end TableRouting.Json
