/-!
# LayerStack.Binary64

Double-precision numbers by their exact value.

A form field, a default or a hyperparameter is a double whose *exact* value matters: whether it is whole,
which integer it equals, which decimal text names it.  `Binary64` keeps that value as sign, mantissa and
power of two, so each of these questions is arithmetic on integers.

Rounding is stated once, for any binary `Format`: the quotient `num / den` becomes the nearest number of the
format, a tie going to the even mantissa, and overflows to an infinity past the largest exponent.
-/

namespace LayerStack

/-- A binary floating-point format: `precision` mantissa bits, exponents of the last bit from `minExponent` to
`maxExponent`. -/
structure Binary64.Format where
  precision : Nat
  minExponent : Int
  maxExponent : Int
deriving Repr, DecidableEq

/-- A number `± mantissa * 2 ^ exponent`, an infinity, or not a number.  Numbers built by `Format.round` are
canonical: the mantissa has full precision unless the exponent is the smallest one. -/
inductive Binary64 where
  | finite (negative : Bool) (mantissa : Nat) (exponent : Int)
  | infinite (negative : Bool)
  | nan
deriving Repr, DecidableEq, Inhabited

namespace Binary64

/-! ## Rounding -/

/-- Double precision. -/
def Format.double : Format := ⟨53, -1074, 971⟩

/-- The least mantissa of full precision of a double: two to the power of 52. -/
def hiddenBit : Nat := 4503599627370496

/-- Single precision; its numbers are doubles too. -/
def Format.single : Format := ⟨24, -149, 104⟩

/-- The nearest natural number to `num / den`, a half going to the even neighbour. -/
def roundHalfEven (num den : Nat) : Nat :=
  let quotient := num / den
  let rest := num % den
  if den < 2 * rest ∨ (den = 2 * rest ∧ quotient % 2 = 1) then quotient + 1 else quotient

/-- `num / (den * 2 ^ exponent)` as a fraction of natural numbers. -/
def scaled (num den : Nat) (exponent : Int) : Nat × Nat :=
  if 0 ≤ exponent then (num, den * Nat.pow 2 exponent.toNat) else (num * Nat.pow 2 (-exponent).toNat, den)

/-- The power of two that leaves `num / den` exactly `bits` bits before the point. -/
def leadingExponent (bits num den : Nat) : Int :=
  let guess : Int := (num.log2 : Int) - den.log2 - bits + 1
  let (n, d) := scaled num den guess
  if n < d * Nat.pow 2 (bits - 1) then guess - 1 else guess

/-- A rounded mantissa of one bit too many is halved, which is exact. -/
def Format.pack (f : Format) (negative : Bool) (mantissa : Nat) (exponent : Int) : Binary64 :=
  let (m, e) :=
    if mantissa = Nat.pow 2 f.precision then (Nat.pow 2 (f.precision - 1), exponent + 1) else (mantissa, exponent)
  if f.maxExponent < e then .infinite negative else .finite negative m e

/-- The number of the format nearest to `± num / den`. -/
def Format.round (f : Format) (negative : Bool) (num den : Nat) : Binary64 :=
  if num = 0 then .finite negative 0 f.minExponent
  else
    let exponent := max (leadingExponent f.precision num den) f.minExponent
    let (n, d) := scaled num den exponent
    f.pack negative (roundHalfEven n d) exponent

/-! ## Exact values -/

/-- The exact value as a signed numerator over a power of two. -/
def fraction (negative : Bool) (mantissa : Nat) (exponent : Int) : Int × Nat :=
  let (n, d) :=
    if 0 ≤ exponent then (mantissa * Nat.pow 2 exponent.toNat, 1) else (mantissa, Nat.pow 2 (-exponent).toNat)
  (if negative then -(n : Int) else n, d)

/-- The double nearest to the fraction `num / den`. -/
def ofFraction (num : Int) (den : Nat) : Binary64 :=
  Format.double.round (num < 0) num.natAbs den

/-- The double nearest to an integer; `none` where even rounding leaves the range. -/
def ofInt? (n : Int) : Option Binary64 :=
  match ofFraction n 1 with
  | .infinite _ => none
  | x => some x

/-- The double nearest to an integer, infinite past the range. -/
def ofInt (n : Int) : Binary64 := ofFraction n 1

/-- The double nearest to `± digits * 10 ^ exponent`.  Past ten thousand places on either side every numeral is
infinite or zero, so the power of ten is never computed there. -/
def ofDecimal (negative : Bool) (digits : Nat) (exponent : Int) : Binary64 :=
  if digits = 0 then .finite negative 0 Format.double.minExponent
  else if 10000 < exponent then .infinite negative
  else if exponent + (Nat.log2 digits : Int) < -10000 then .finite negative 0 Format.double.minExponent
  else if 0 ≤ exponent then Format.double.round negative (digits * Nat.pow 10 exponent.toNat) 1
  else Format.double.round negative digits (Nat.pow 10 (-exponent).toNat)

/-- The same number at single precision. -/
def toSingle : Binary64 → Binary64
  | .finite negative mantissa exponent =>
    let (n, d) := fraction false mantissa exponent
    match Format.single.round negative n.toNat d with
    | .finite s m e =>
      let (n, d) := fraction false m e
      Format.double.round s n.toNat d
    | x => x
  | x => x

/-- The integer a whole number equals. -/
def toInt? : Binary64 → Option Int
  | .finite negative mantissa exponent =>
    let (n, d) := fraction negative mantissa exponent
    if n % d = 0 then some (n / d) else none
  | _ => none

def isWhole (x : Binary64) : Bool := x.toInt?.isSome

/-- The integer part, toward zero, of a finite number. -/
def truncate? : Binary64 → Option Int
  | .finite negative mantissa exponent =>
    let (n, d) := fraction negative mantissa exponent
    some (n.tdiv d)
  | _ => none

/-- The least integer that is not below a finite number. -/
def ceiling? : Binary64 → Option Int
  | .finite negative mantissa exponent =>
    let (n, d) := fraction negative mantissa exponent
    some (-(-n / d))
  | _ => none

/-- The nearest integer of a finite number, a half going to the even neighbour. -/
def nearest? : Binary64 → Option Int
  | .finite negative mantissa exponent =>
    let (n, d) := fraction false mantissa exponent
    let k : Int := roundHalfEven n.toNat d
    some (if negative then -k else k)
  | _ => none

/-! ## Comparison -/

/-- The order of two numbers, infinities at the ends; `none` if either is not a number. -/
def compare? : Binary64 → Binary64 → Option Ordering
  | .nan, _ => none
  | _, .nan => none
  | .infinite a, .infinite b => some (compare b.toNat a.toNat)
  | .infinite a, .finite .. => some (if a then .lt else .gt)
  | .finite .., .infinite b => some (if b then .gt else .lt)
  | .finite s m e, .finite s' m' e' =>
    let (n, d) := fraction s m e
    let (n', d') := fraction s' m' e'
    some (compare (n * d') (n' * d))

def lt (x y : Binary64) : Bool := compare? x y == some .lt

/-! ## Arithmetic -/

/-- The rounded difference of two numbers. -/
def sub : Binary64 → Binary64 → Binary64
  | .finite s m e, .finite s' m' e' =>
    let (n, d) := fraction s m e
    let (n', d') := fraction s' m' e'
    let top := n * d' - n' * d
    if top = 0 then .finite (s && !s') 0 Format.double.minExponent else ofFraction top (d * d')
  | .infinite a, .infinite b => if a = b then .nan else .infinite a
  | .infinite a, .finite .. => .infinite a
  | .finite .., .infinite b => .infinite !b
  | _, _ => .nan

/-- The number of the other sign. -/
def opposite : Binary64 → Binary64
  | .finite negative mantissa exponent => .finite (!negative) mantissa exponent
  | .infinite negative => .infinite !negative
  | .nan => .nan

/-- The rounded sum of two numbers. -/
def add (x y : Binary64) : Binary64 := sub x y.opposite

/-- The rounded product of two numbers. -/
def mul : Binary64 → Binary64 → Binary64
  | .finite s m e, .finite s' m' e' =>
    let (n, d) := fraction false m e
    let (n', d') := fraction false m' e'
    Format.double.round (s ^^ s') (n.toNat * n'.toNat) (d * d')
  | .infinite a, .infinite b => .infinite (a ^^ b)
  | .infinite a, .finite s m _ => if m = 0 then .nan else .infinite (a ^^ s)
  | .finite s m _, .infinite b => if m = 0 then .nan else .infinite (s ^^ b)
  | _, _ => .nan

end Binary64

end LayerStack
