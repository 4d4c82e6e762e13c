import LayerStack.Binary64.Machine
import LayerStack.Scalar

/-!
# LayerStack.Scalar.Machine

Machine doubles as scalars.

The two functions the machine does not offer are made from those it does: the rounding error of `exp x` (or of `1 + x`)
is carried into the logarithm (or back out of it) and so cancels.
-/

namespace LayerStack.Machine

/-- `exp x - 1`, accurate to the last digits for every `x`. -/
def expm1 (x : Float) : Float :=
  let u := x.exp
  if u == 1 then x
  else if u - 1 == -1 then -1
  else if u == u + u then u
  else (u - 1) * x / u.log

/-- `log (1 + x)`, accurate to the last digits for every `x`. -/
def log1p (x : Float) : Float :=
  let u := 1 + x
  if u == 1 then x
  else if u == u + u then u.log
  else u.log * x / (u - 1)

/-- The double nearest to a number. -/
def ofNumber (x : Number) : Float := x.toBinary64.toFloat

instance : Elementary Float where
  exp := Float.exp
  expm1 := expm1
  log := Float.log
  log1p := log1p
  sqrt := Float.sqrt
  tanh := Float.tanh
  sin := Float.sin
  cos := Float.cos
  pow := Float.pow
  pi := 3.141592653589793

instance : Scalar Float where
  zero := 0
  one := 1
  natCast n := Float.ofNat n
  decidableLT := inferInstance
  decidableLE := inferInstance
  natPow x n := x.pow (Float.ofNat n)
  ofNumber := ofNumber
  whole? x := (Binary64.ofFloat x).toInt?
  truncate? x := (Binary64.ofFloat x).truncate?
  toBinary64 := Binary64.ofFloat
  least? := some (-1 / 0)
  isWord _ := false

end LayerStack.Machine
