import LayerStack.Binary64

/-!
# LayerStack.Binary64.Shortest

The shortest decimal that reads back as a given number of a format.

A number of a format stands for every real number that rounds to it: an interval around its value whose ends belong to
it exactly when the mantissa is even.  On the grid of `n`-digit decimals only the two neighbours of the value can
be the nearest member of that interval, so the shortest decimal is found by testing those two on grids of one,
two, … seventeen digits.
-/

namespace LayerStack.Binary64

/-- A positive decimal `digits * 10 ^ exponent`. -/
structure Decimal where
  digits : Nat
  exponent : Int
deriving Repr, DecidableEq

namespace Decimal

/-- The value as a fraction. -/
def fraction (x : Decimal) : Nat × Nat :=
  if 0 ≤ x.exponent then (x.digits * Nat.pow 10 x.exponent.toNat, 1) else (x.digits, Nat.pow 10 (-x.exponent).toNat)

/-- Drops trailing zeros from the digits; `fuel` bounds the number dropped. -/
def trimFuel : Nat → Decimal → Decimal
  | 0, x => x
  | fuel + 1, x => if x.digits % 10 = 0 then trimFuel fuel ⟨x.digits / 10, x.exponent + 1⟩ else x

/-- The same value with no trailing zero in its digits; zero is `0 * 10 ^ 0`. -/
def trim (x : Decimal) : Decimal :=
  if x.digits = 0 then ⟨0, 0⟩ else trimFuel (x.digits.log2 + 1) x

/-- The digits as text. -/
def text (x : Decimal) : String := toString x.digits

/-- The power of ten of the first digit. -/
def leading (x : Decimal) : Int := x.exponent + (x.text.length : Int) - 1

end Decimal

/-- The reals that round to a number, as three fractions over one denominator: lower end, value, upper end. -/
structure Interval where
  lower : Nat
  value : Nat
  upper : Nat
  den : Nat
  closed : Bool
deriving Repr

/-- The rounding interval of a positive number.  Just above a power of two the gap below is half the gap above. -/
def Format.interval (f : Format) (mantissa : Nat) (exponent : Int) : Interval :=
  let narrow := mantissa = Nat.pow 2 (f.precision - 1) ∧ f.minExponent < exponent
  let (unit, den) := if 2 ≤ exponent then (Nat.pow 2 (exponent - 2).toNat, 1) else (1, Nat.pow 2 (2 - exponent).toNat)
  let value := 4 * mantissa * unit
  ⟨value - (if narrow then unit else 2 * unit), value, value + 2 * unit, den, mantissa % 2 = 0⟩

/-- Does the fraction `num / den` lie in the interval? -/
def Interval.mem (i : Interval) (num den : Nat) : Bool :=
  let x := num * i.den
  if i.closed then i.lower * den ≤ x && x ≤ i.upper * den else i.lower * den < x && x < i.upper * den

/-- The largest power of ten not above `value / den`, searched downward from `start`. -/
def leadingPower (value den : Nat) : Nat → Int → Int
  | 0, start => start
  | fuel + 1, start =>
    let (n, d) := Decimal.fraction ⟨1, start⟩
    if n * den ≤ value * d then start else leadingPower value den fuel (start - 1)

/-- The member of the interval nearest to its value among the two neighbours of the value on the grid of
multiples of `10 ^ power`. -/
def Interval.onGrid? (i : Interval) (power : Int) : Option Decimal :=
  let (n, d) := Decimal.fraction ⟨1, power⟩
  let top := i.value * d
  let step := n * i.den
  let below := top / step
  let rest := top % step
  let inside (k : Nat) : Bool := let (n, d) := Decimal.fraction ⟨k, power⟩; i.mem n d
  let up := step < 2 * rest ∨ (step = 2 * rest ∧ below % 2 = 1)
  let first := if up then below + 1 else below
  let second := if up then below else below + 1
  if inside first then some ⟨first, power⟩ else if inside second then some ⟨second, power⟩ else none

/-- The first hit on grids of one more digit each. -/
def Interval.search (i : Interval) : Nat → Int → Option Decimal
  | 0, _ => none
  | fuel + 1, power =>
    match i.onGrid? power with
    | some x => some x
    | none => i.search fuel (power - 1)

/-- The shortest decimal that reads back as the positive number `mantissa * 2 ^ exponent` of a format. -/
def Format.shortest (f : Format) (mantissa : Nat) (exponent : Int) : Decimal :=
  let i := f.interval mantissa exponent
  let start : Int := ((mantissa.log2 : Int) + exponent) * 3 / 10 + 2
  match i.search 20 (leadingPower i.value i.den 700 start) with
  | some x => x.trim
  | none => ⟨0, 0⟩

/-! ## Layouts -/

/-- The text of a decimal in positional form, with at least one digit on each side of the point. -/
def Decimal.positional (x : Decimal) : String :=
  let digits := x.text
  if 0 ≤ x.exponent then digits ++ "".pushn '0' x.exponent.toNat ++ ".0"
  else
    let places := (-x.exponent).toNat
    let padded := "".pushn '0' (places + 1 - digits.length) ++ digits
    let whole := padded.length - places
    (padded.take whole).toString ++ "." ++ (padded.drop whole).toString

/-- A decimal exponent, signed and of at least two digits. -/
def exponentText (e : Int) : String :=
  let digits := toString e.natAbs
  (if e < 0 then "-" else "+") ++ (if digits.length < 2 then "0" ++ digits else digits)

/-- The text of a decimal in exponent form; a single digit stands without a point. -/
def Decimal.scientific (x : Decimal) : String :=
  let digits := x.text
  let tail := (digits.drop 1).toString
  (digits.take 1).toString ++ (if tail.isEmpty then "" else "." ++ tail) ++ "e" ++ exponentText x.leading

/-- The shortest text of a double: positional from `1e-4` up to below `1e16`, exponent form outside. -/
def toText : Binary64 → String
  | .nan => "nan"
  | .infinite negative => if negative then "-inf" else "inf"
  | .finite negative mantissa exponent =>
    let sign := if negative then "-" else ""
    if mantissa = 0 then sign ++ "0.0"
    else
      let x := Format.double.shortest mantissa exponent
      sign ++ if x.leading < -4 ∨ 16 ≤ x.leading then x.scientific else x.positional

/-- The shortest text of a number at single precision: positional from `1e-4` up to below `1e16`, which here are bounds
of its value and not of its digits, exponent form outside. -/
def singleText (x : Binary64) : String :=
  match x with
  | .finite negative mantissa exponent =>
    let (n, d) := fraction false mantissa exponent
    match Format.single.round negative n.toNat d with
    | .finite _ (m + 1) e =>
      let x := Format.single.shortest (m + 1) e
      let size := n.toNat
      (if negative then "-" else "")
        ++ if size * 10000 < d ∨ d * Nat.pow 10 16 ≤ size then x.scientific else x.positional
    | _ => x.toText
  | x => x.toText

end LayerStack.Binary64
