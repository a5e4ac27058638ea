import TableRouting.Json.Value
import TableRouting.Toml.Lexical

/-!
# TOML numbers, booleans and dates

A scalar that is not a string is one word; a date and a time may also be two
words with a space between them. Integers have 64 bits. No setting is a float or
a date, so of these only the form is kept: a float stands for zero, and a date is
a table with a single entry.
-/

namespace TableRouting.Toml

def isWordChar (c : Char) : Bool :=
  c.isAlphanum || c == '+' || c == '-' || c == '_' || c == '.' || c == ':'

/-- Digits with single underscores between them. -/
def isDigitGroups (isDigit : Char → Bool) : List Char → Bool
  | [] => false
  | [c] => isDigit c
  | c :: '_' :: rest => isDigit c && isDigitGroups isDigit rest
  | c :: rest => isDigit c && isDigitGroups isDigit rest

private def unsigned : List Char → Bool × List Char
  | '-' :: rest => (true, rest)
  | '+' :: rest => (false, rest)
  | rest => (false, rest)

/-- Decimal digits without leading zeros. -/
def isDecimal (text : List Char) : Bool :=
  isDigitGroups Char.isDigit text && (text.head? != some '0' || text.length == 1)

private def hexValue (c : Char) : Nat :=
  if c.isDigit then c.toNat - '0'.toNat else c.toLower.toNat - 'a'.toNat + 10

/-- The number that digits write in a base; underscores count for nothing. -/
private def valueIn (base : Nat) (digits : List Char) : Nat :=
  (digits.filter (· != '_')).foldl (fun n c => base * n + hexValue c) 0

private def isHexDigit (c : Char) : Bool :=
  c.isDigit || ('a' ≤ c && c ≤ 'f') || ('A' ≤ c && c ≤ 'F')

/-- An integer within 64 bits, signed if decimal. -/
def integer? (word : List Char) : Option Int :=
  let inBase (base : Nat) (isDigit : Char → Bool) (digits : List Char) : Option Int :=
    let n := valueIn base digits
    if isDigitGroups isDigit digits ∧ n < UInt64.size / 2 then some n else none
  match word with
  | '0' :: 'x' :: digits => inBase 16 isHexDigit digits
  | '0' :: 'o' :: digits => inBase 8 (fun c => '0' ≤ c && c ≤ '7') digits
  | '0' :: 'b' :: digits => inBase 2 (fun c => c == '0' || c == '1') digits
  | word =>
    let (negative, digits) := unsigned word
    let n := valueIn 10 digits
    if !isDecimal digits then none
    else if negative then if n ≤ UInt64.size / 2 then some (-n) else none
    else if n < UInt64.size / 2 then some n else none

/-- Whether `digits · 10^scale` is too large for a double. -/
def overflows (digits : Nat) (scale : Int) : Bool :=
  let size := ((Nat.toDigits 10 digits).length : Int) + scale
  if digits = 0 ∨ size < 300 then false
  else if 320 < size then true
  else (Nat.pow 2 1024 - Nat.pow 2 970) * Nat.pow 10 (-scale).toNat ≤
      digits * Nat.pow 10 scale.toNat

/-- A float: a decimal number with a fraction or an exponent, infinity or
not-a-number. One that exceeds every double is refused unless it is negative. -/
def isFloat (word : List Char) : Bool :=
  let (negative, word) := unsigned word
  if word = ['i', 'n', 'f'] ∨ word = ['n', 'a', 'n'] then true
  else
    let isMark (c : Char) : Bool := c == 'e' || c == 'E'
    let whole := word.takeWhile fun c => c != '.' && !isMark c
    let rest := word.drop whole.length
    let (fraction, fractionOk, rest) := match rest with
      | '.' :: rest =>
        let fraction := rest.takeWhile fun c => !isMark c
        (fraction, isDigitGroups Char.isDigit fraction, rest.drop fraction.length)
      | rest => ([], true, rest)
    let (exponent, exponentOk) : Int × Bool := match rest with
      | [] => (0, true)
      | _ :: digits =>
        let (down, digits) := unsigned digits
        let n : Int := valueIn 10 digits
        (if down then -n else n, isDigitGroups Char.isDigit digits)
    let places : Int := (fraction.filter (· != '_')).length
    isDecimal whole && fractionOk && exponentOk && whole.length < word.length &&
      (negative || !overflows (valueIn 10 (whole ++ fraction)) (exponent - places))

private def twoDigits? : List Char → Option (Nat × List Char)
  | a :: b :: rest => if a.isDigit ∧ b.isDigit then some (valueIn 10 [a, b], rest) else none
  | _ => none

private def mark? (c : Char) : List Char → Option (List Char)
  | d :: rest => if d = c then some rest else none
  | [] => none

def daysIn (year month : Nat) : Nat :=
  if month = 2 then
    if year % 4 = 0 ∧ (year % 100 ≠ 0 ∨ year % 400 = 0) then 29 else 28
  else if month = 4 ∨ month = 6 ∨ month = 9 ∨ month = 11 then 30
  else 31

def date? (text : List Char) : Option (List Char) := do
  let (century, rest) ← twoDigits? text
  let (decade, rest) ← twoDigits? rest
  let (month, rest) ← twoDigits? (← mark? '-' rest)
  let (day, rest) ← twoDigits? (← mark? '-' rest)
  if 1 ≤ month ∧ month ≤ 12 ∧ 1 ≤ day ∧ day ≤ daysIn (100 * century + decade) month then
    some rest
  else none

def time? (text : List Char) : Option (List Char) := do
  let (hour, rest) ← twoDigits? text
  let (minute, rest) ← twoDigits? (← mark? ':' rest)
  let (second, rest) ← twoDigits? (← mark? ':' rest)
  if hour ≤ 23 ∧ minute ≤ 59 ∧ second ≤ 60 then
    match rest with
    | '.' :: digits =>
      let fraction := digits.takeWhile Char.isDigit
      if fraction.isEmpty then none else some (digits.drop fraction.length)
    | rest => some rest
  else none

/-- A time of day with an optional offset from universal time, as a whole word. -/
def isTimeWithOffset (word : List Char) : Bool :=
  match time? word with
  | none => false
  | some [] => true
  | some ['Z'] => true
  | some ['z'] => true
  | some (sign :: offset) =>
    (sign == '+' || sign == '-') &&
      match twoDigits? offset with
      | some (hour, rest) =>
        match (mark? ':' rest).bind twoDigits? with
        | some (minute, []) => hour ≤ 23 && minute ≤ 59
        | _ => false
      | none => false

/-- A date, a time, or a date and a time in one word. -/
def isDateWord (word : List Char) : Bool :=
  match date? word with
  | some [] => true
  | some (separator :: time) => (separator == 'T' || separator == 't') && isTimeWithOffset time
  | none => time? word == some []

/-- The value of a word and the text after it. A date is followed by a time after
one space when a time can be read there. -/
def scalar? (text : List Char) : Option (Json × List Char) :=
  let word := text.takeWhile isWordChar
  let rest := text.drop word.length
  if word = ['t', 'r', 'u', 'e'] then some (.bool true, rest)
  else if word = ['f', 'a', 'l', 's', 'e'] then some (.bool false, rest)
  else
    match integer? word with
    | some n => some (.num (.integer n), rest)
    | none =>
      if isFloat word then some (.num (.double 0), rest)
      else if isDateWord word then
        let date : Json := .obj [("date", .str (String.ofList word))]
        match rest with
        | ' ' :: following =>
          let time := following.takeWhile isWordChar
          if date? word = some [] ∧ isTimeWithOffset time then
            some (date, following.drop time.length)
          else some (date, rest)
        | rest => some (date, rest)
      else none

end TableRouting.Toml
