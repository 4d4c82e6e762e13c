import LayerStack.Binary64.Shortest

/-!
# LayerStack.Binary64.Rounded

A double rounded to a number of places or of significant digits.

The exact value is rounded, a half going to the even neighbour: `atPlaces` on the grid of multiples of
`10 ^ -places`, `atDigits` on the grid that leaves so many significant digits.
-/

namespace LayerStack.Binary64

/-- The fraction `num / den` rounded to a multiple of `10 ^ power`. -/
def onGrid (num den : Nat) (power : Int) : Decimal :=
  let (n, d) := Decimal.fraction ⟨1, power⟩
  ⟨roundHalfEven (num * d) (den * n), power⟩

/-- The fraction rounded to a number of decimal places. -/
def atPlaces (num den places : Nat) : Decimal := onGrid num den (-(places : Int))

/-- The fraction rounded to a number of significant digits; a carry into one more digit is kept as it is. -/
def atDigits (num den count : Nat) : Decimal :=
  if num = 0 then ⟨0, 0⟩
  else
    let start : Int := ((num.log2 : Int) - den.log2) * 3 / 10 + 2
    onGrid num den (leadingPower num den 700 start - count + 1)

/-- The text of a decimal rounded to places: that many digits after the point, and no point for none. -/
def Decimal.fixedText (x : Decimal) (places : Nat) : String :=
  let digits := x.text
  let padded := "".pushn '0' (places + 1 - digits.length) ++ digits
  let whole := padded.length - places
  (padded.take whole).toString ++ (if places = 0 then "" else "." ++ (padded.drop whole).toString)

/-- A double with a fixed number of decimal places. -/
def toFixed (places : Nat) : Binary64 → String
  | .nan => "nan"
  | .infinite negative => if negative then "-inf" else "inf"
  | .finite negative mantissa exponent =>
    let (n, d) := fraction false mantissa exponent
    (if negative then "-" else "") ++ (atPlaces n.toNat d places).fixedText places

/-- A double with at most `count` significant digits and no trailing zeros: positional while the exponent of the
rounded value is at least `-4` and below `count`, exponent form outside. -/
def toGeneral (count : Nat) : Binary64 → String
  | .nan => "nan"
  | .infinite negative => if negative then "-inf" else "inf"
  | .finite negative mantissa exponent =>
    let (n, d) := fraction false mantissa exponent
    let x := (atDigits n.toNat d count).trim
    let body :=
      if x.leading < -4 ∨ (count : Int) ≤ x.leading then x.scientific
      else if 0 ≤ x.exponent then x.text ++ "".pushn '0' x.exponent.toNat
      else x.positional
    (if negative then "-" else "") ++ body

end LayerStack.Binary64
