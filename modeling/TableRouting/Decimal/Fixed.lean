import TableRouting.Decimal.Shortest

/-!
# Fixed decimal places

A finite double with a fixed number of decimal places: the exact value of the
double is rounded to the grid, and a tie goes to the even neighbour.
-/

namespace TableRouting.Decimal

/-- Divide and round to nearest, a tie to even. -/
def roundDiv (num den : Nat) : Nat :=
  let floor := num / den
  let twice := 2 * (num % den)
  if twice < den then floor
  else if den < twice then floor + 1
  else if floor % 2 = 0 then floor else floor + 1

/-- The text of a finite double with `places` decimal places. -/
def fixed (places : Nat) (bits : UInt64) : String :=
  let (negative, value) := ofDouble bits
  let scaled := match value with
    | none => 0
    | some b =>
      roundDiv (b.significand * Nat.pow 10 places * Nat.pow 2 b.exponent.toNat)
        (Nat.pow 2 (-b.exponent).toNat)
  let decimals := Nat.toDigits 10 (scaled % Nat.pow 10 places)
  let shown := toString (scaled / Nat.pow 10 places) ++ "." ++
    String.ofList (List.replicate (places - decimals.length) '0' ++ decimals)
  if negative then "-" ++ shown else shown

end TableRouting.Decimal
