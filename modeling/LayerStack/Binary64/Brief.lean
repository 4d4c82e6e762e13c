import LayerStack.Binary64.Rounded

/-!
# LayerStack.Binary64.Brief

Computed numbers in brief.

A computed number is shown to eight significant digits, but, unless asked for, to no more than ten decimal places: as an
integer without trailing zeros, followed by a power of ten where there is one.
-/

namespace LayerStack.Binary64

/-- The value rounded for showing; `small` if it is below one thousandth. -/
def briefDecimal (significant small : Bool) (num den : Nat) : Decimal :=
  (if significant || !small then atDigits num den 8 else atPlaces num den 10).trim

/-- The text of a number in brief; with `significant`, small numbers have all of their eight digits. -/
def brief (significant : Bool) : Binary64 → String
  | .nan => "nan"
  | .infinite negative => if negative then "-inf" else "inf"
  | .finite negative mantissa exponent =>
    let (n, d) := fraction false mantissa exponent
    let small := lt (.finite false mantissa exponent) (ofDecimal false 1 (-3))
    let x := briefDecimal significant small n.toNat d
    if x.digits = 0 then "0"
    else (if negative then "-" else "") ++ x.text ++ (if x.exponent = 0 then "" else "e" ++ toString x.exponent)

end LayerStack.Binary64
