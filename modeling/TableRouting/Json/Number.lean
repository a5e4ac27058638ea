import TableRouting.Decimal.Shortest

/-!
# Numbers of JSON texts

A number is an integer of at most 64 bits, kept exactly, or a double. An integer
literal that does not fit becomes a double, and so does `-0`. A double is kept as
its bits, so numbers are equal when they print alike.

Reading a double takes the leading digits that fit in 64 bits, rounds them to a
double, and scales by a power of ten with one more rounding. Printing gives the
shortest digits that read back under correct rounding.
-/

namespace TableRouting.Json

/-- A number: an integer, or the bits of a finite double. -/
inductive Number where
  | integer (n : Int)
  | double (bits : UInt64)
  deriving DecidableEq, Repr

namespace Number

def natText (n : Nat) : List Char := Nat.toDigits 10 n

/-- Where positional notation ends: a leading digit at `10^e` is written
positionally for `-5 ≤ e < 16`. -/
def positional (lead : Int) : Bool := -5 ≤ lead && lead < 16

/-- Lay out digits whose first one stands at `10^lead`. A positional number has
at least one decimal; the other notation has a mark and a sign in its exponent. -/
def layout (digits : List Char) (lead : Int) : List Char :=
  if positional lead then
    if lead < 0 then
      '0' :: '.' :: (List.replicate (-lead - 1).toNat '0' ++ digits)
    else
      let whole := lead.toNat + 1
      let decimals := digits.drop whole
      digits.take whole ++ List.replicate (whole - digits.length) '0' ++
        '.' :: (if decimals.isEmpty then ['0'] else decimals)
  else
    let fraction := match digits with
      | first :: second :: rest => first :: '.' :: second :: rest
      | short => short
    fraction ++ 'e' :: (if lead < 0 then '-' else '+') :: natText lead.natAbs

def doubleText (bits : UInt64) : List Char :=
  let (negative, value) := Decimal.ofDouble bits
  let magnitude := match value with
    | none => ['0', '.', '0']
    | some binary =>
      let d := Decimal.shortest binary
      let digits := natText d.digits
      layout digits (digits.length - 1 + d.scale)
  if negative then '-' :: magnitude else magnitude

/-- The text of an integer: a sign only when it is negative. -/
def integerText : Int → List Char
  | .ofNat n => natText n
  | .negSucc n => '-' :: natText (n + 1)

def text : Number → List Char
  | .integer n => integerText n
  | .double bits => doubleText bits

/-- The parts of a number literal, as digit characters. -/
structure Literal where
  negative : Bool
  whole : List Char
  fraction : List Char
  /-- Sign and digits of the exponent, when there is one. -/
  exponent : Option (Bool × List Char)
  deriving DecidableEq, Repr

/-- Split an exponent mark, an optional sign and at least one digit. -/
private def exponentOf? : List Char → Option (Option (Bool × List Char))
  | [] => some none
  | c :: rest =>
    if c = 'e' ∨ c = 'E' then
      let (negative, digits) := match rest with
        | '-' :: digits => (true, digits)
        | '+' :: digits => (false, digits)
        | digits => (false, digits)
      if digits.isEmpty ∨ !digits.all Char.isDigit then none else some (some (negative, digits))
    else none

/-- The parts of a literal of the JSON grammar: no leading zeros, and at least
one digit wherever digits may stand. -/
def Literal.ofChars? (text : List Char) : Option Literal :=
  let (negative, unsigned) := match text with
    | '-' :: rest => (true, rest)
    | rest => (false, rest)
  let whole := unsigned.takeWhile Char.isDigit
  let rest := unsigned.dropWhile Char.isDigit
  if whole.isEmpty ∨ (whole.head? = some '0' ∧ 1 < whole.length) then none
  else
    match rest with
    | '.' :: rest =>
      let fraction := rest.takeWhile Char.isDigit
      if fraction.isEmpty then none
      else (exponentOf? (rest.dropWhile Char.isDigit)).map (⟨negative, whole, fraction, ·⟩)
    | rest => (exponentOf? rest).map (⟨negative, whole, [], ·⟩)

def digitValue (c : Char) : Nat := c.toNat - '0'.toNat

def digitsValue (digits : List Char) : Nat :=
  digits.foldl (fun n c => 10 * n + digitValue c) 0

/-- Append digits to a significand as long as it fits in 64 bits. Returns it with
the digits that were left over, from the first that did not fit. -/
def gather (significand : Nat) : List Char → Nat × List Char
  | [] => (significand, [])
  | c :: rest =>
    let next := 10 * significand + digitValue c
    if next < UInt64.size then gather next rest else (significand, c :: rest)

/-- Ten to the power `n`, rounded. -/
private def powerOfTen (n : Nat) : Float := Float.ofScientific 1 false n

/-- Scale by a power of ten in steps of `10^308`; a number that becomes infinite
has no double. -/
def scaleByTen (f : Float) (exponent : Int) : Option Float :=
  if exponent.natAbs ≤ 308 then
    if 0 ≤ exponent then
      let scaled := f * powerOfTen exponent.natAbs
      if scaled.isInf then none else some scaled
    else
      some (f / powerOfTen exponent.natAbs)
  else if f == 0 then some f
  else if 0 ≤ exponent then none
  else scaleByTen (f / powerOfTen 308) (exponent + 308)
termination_by (-exponent).toNat
decreasing_by omega

def Literal.double? (literal : Literal) : Option UInt64 :=
  let (gathered, dropped) := gather 0 literal.whole
  let (significand, ignored) := gather gathered literal.fraction
  let taken := literal.fraction.length - ignored.length
  let start : Int := dropped.length - taken
  let signed (f : Float) : UInt64 := (if literal.negative then -f else f).toBits
  let limit : Int := (UInt32.size / 2 : Nat)
  match literal.exponent with
  | none => (scaleByTen (UInt64.ofNat significand).toFloat start).map signed
  | some (negative, digits) =>
    let exponent : Int := digitsValue digits
    if limit ≤ exponent then
      if significand ≠ 0 ∧ !negative then none else some (signed 0)
    else
      let total := if negative then start - exponent else start + exponent
      let bounded := max (-limit) (min (limit - 1) total)
      (scaleByTen (UInt64.ofNat significand).toFloat bounded).map signed

/-- The number of a literal: an integer when it has neither fraction nor exponent
and fits, except that minus zero is a double. -/
def Literal.number? (literal : Literal) : Option Number :=
  let magnitude := digitsValue literal.whole
  if literal.fraction.isEmpty ∧ literal.exponent.isNone then
    if literal.negative then
      if 0 < magnitude ∧ magnitude ≤ UInt64.size / 2 then some (.integer (-magnitude))
      else literal.double?.map .double
    else if magnitude < UInt64.size then some (.integer magnitude)
    else literal.double?.map .double
  else literal.double?.map .double

def ofChars? (text : List Char) : Option Number :=
  (Literal.ofChars? text).bind Literal.number?

/-- The value as an unsigned 64-bit integer; a double never is one. -/
def toUInt64? : Number → Option UInt64
  | .integer (.ofNat n) => if n < UInt64.size then some (UInt64.ofNat n) else none
  | _ => none

def ofUInt64 (n : UInt64) : Number := .integer n.toNat

@[simp] theorem toUInt64?_ofUInt64 (n : UInt64) : (ofUInt64 n).toUInt64? = some n := by
  have h : n.toNat < 18446744073709551616 := n.toNat_lt
  simp [ofUInt64, toUInt64?, h]

end Number

end TableRouting.Json
