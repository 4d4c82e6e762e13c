import LayerStack.Binary64
import LayerStack.Word

/-!
# LayerStack.Binary64.Machine

The same numbers in the machine's own format: a `Binary64` and a `Float` hold the same value, and the 64-bit
layout (sign, eleven exponent bits, 52 mantissa bits) carries one to the other.
-/

namespace LayerStack.Binary64

/-- Reads the fields of a double. -/
def ofFloat (x : Float) : Binary64 :=
  let bits := x.toBits.toNat
  let negative := bits / Word.half = 1
  let field : Nat := bits / hiddenBit % 2048
  let fraction : Nat := bits % hiddenBit
  if field = 2047 then (if fraction = 0 then .infinite negative else .nan)
  else if field = 0 then .finite negative fraction Format.double.minExponent
  else .finite negative (hiddenBit + fraction) ((field : Int) - 1075)

/-- Writes the fields of a double. -/
def toFloat (x : Binary64) : Float :=
  let word (negative : Bool) (field fraction : Nat) : Float :=
    .ofBits (.ofNat ((if negative then Word.half else 0) + field * hiddenBit + fraction))
  match x with
  | .nan => 0.0 / 0.0
  | .infinite negative => word negative 2047 0
  | .finite negative mantissa exponent =>
    if mantissa < hiddenBit then word negative 0 mantissa
    else word negative (exponent + 1075).toNat (mantissa - hiddenBit)

end LayerStack.Binary64
