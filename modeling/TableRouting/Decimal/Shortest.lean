/-!
# Shortest decimal digits of a binary number

A finite binary number is `significand · 2^exponent`. Among all decimals that
round back to it this module picks one with the fewest digits and, of those,
the nearest. It looks at the grids of 1, 2, … 17 digits in turn and tests the
two neighbours of the number on the grid, in exact arithmetic; the first grid
with a neighbour inside the rounding interval wins.
-/

namespace TableRouting.Decimal

/-- A positive binary number. `narrowBelow` says that the gap to the number
below is half the gap to the number above. -/
structure Binary where
  significand : Nat
  exponent : Int
  narrowBelow : Bool
  deriving DecidableEq, Repr

/-- A decimal `digits · 10^scale` with the digits read as one integer. -/
structure Scaled where
  digits : Nat
  scale : Int
  deriving DecidableEq, Repr

/-- The number of decimal digits of `n`; zero has one. -/
def width (n : Nat) : Nat := (Nat.toDigits 10 n).length

/-- Move factors of ten from the digits into the scale. The fuel is a bound on
the number of digits. -/
def Scaled.normalize : Nat → Scaled → Scaled
  | 0, d => d
  | fuel + 1, d =>
    if d.digits ≠ 0 ∧ d.digits % 10 = 0 then
      normalize fuel ⟨d.digits / 10, d.scale + 1⟩
    else d

private structure Ratio where
  num : Nat
  den : Nat

/-- The ratio `n · 2^two · 10^ten`. -/
private def Ratio.scaled (n : Nat) (two ten : Int) : Ratio :=
  ⟨n * Nat.pow 2 two.toNat * Nat.pow 10 ten.toNat,
    Nat.pow 2 (-two).toNat * Nat.pow 10 (-ten).toNat⟩

/-- The exponent of the leading decimal digit of `num / den`. -/
private def Ratio.leadingExponent (r : Ratio) : Int :=
  if r.den ≤ r.num then
    (width (r.num / r.den) : Int) - 1
  else
    -(width ((r.den + r.num - 1) / r.num - 1) : Int)

/-- The neighbour of the number on the grid `10^(-places)` that rounds back to
it, the nearer one if both do. Half the gap to either side is what rounds back,
with the end points included when the significand is even. -/
def neighbour? (b : Binary) (places : Int) : Option Nat :=
  let value := Ratio.scaled (4 * b.significand) (b.exponent - 2) places
  let gap := if b.narrowBelow then 1 else 2
  let low := Ratio.scaled (4 * b.significand - gap) (b.exponent - 2) places
  let high := Ratio.scaled (4 * b.significand + 2) (b.exponent - 2) places
  let floor := value.num / value.den
  let within (c : Nat) : Bool :=
    if b.significand % 2 = 0 then
      low.num ≤ c * low.den && c * high.den ≤ high.num
    else
      low.num < c * low.den && c * high.den < high.num
  match within floor, within (floor + 1) with
  | false, false => none
  | true, false => some floor
  | false, true => some (floor + 1)
  | true, true =>
    let doubled := 2 * value.num
    let middle := (2 * floor + 1) * value.den
    if doubled < middle then some floor
    else if middle < doubled then some (floor + 1)
    else if floor % 2 = 0 then some floor else some (floor + 1)

/-- The shortest decimal that rounds back to a positive number. -/
def shortest (b : Binary) : Scaled :=
  let lead := (Ratio.scaled b.significand b.exponent 0).leadingExponent
  let found := (List.range 17).findSome? fun (n : Nat) =>
    let places := (n : Int) - lead
    (neighbour? b places).bind fun c => if c = 0 then none else some (Scaled.mk c (-places))
  (found.getD ⟨b.significand, 0⟩).normalize 18

/-- The parts of a finite double: its sign and, unless it is zero, its value. -/
def ofDouble (bits : UInt64) : Bool × Option Binary :=
  let negative := bits >>> 63 == 1
  let biased := ((bits >>> 52) &&& 0x7FF).toNat
  let fraction := (bits &&& 0xFFFFFFFFFFFFF).toNat
  let value :=
    if biased = 0 then
      if fraction = 0 then none else some ⟨fraction, -1074, false⟩
    else
      some ⟨Nat.pow 2 52 + fraction, (biased : Int) - 1075, fraction == 0 && 1 < biased⟩
  (negative, value)

end TableRouting.Decimal
