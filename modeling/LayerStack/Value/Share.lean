import LayerStack.Binary64.Numeral
import LayerStack.Value

/-!
# LayerStack.Value.Share

A share of a number of things.

A ratio is a number up to one.  Its share of a whole is a product in the ratio's own precision, and only then an
integer: the nearest one, or the integer part.
-/

namespace LayerStack.Number

/-- What a ratio leaves of one. -/
def complement : Number → Number
  | .single x => .single (Binary64.sub (.ofInt 1) x).toSingle
  | x => .double (Binary64.sub (.ofInt 1) x.toBinary64)

/-- A ratio of a whole. -/
def share (whole : Nat) : Number → Number
  | .int n => .int (whole * n)
  | .double x => .double (Binary64.mul (.ofInt whole) x)
  | .single x => .single (Binary64.mul (Binary64.ofInt whole).toSingle x).toSingle

/-- The nearest integer, a half going to the even neighbour. -/
def nearest? : Number → Option Int
  | .int n => some n
  | .double x | .single x => x.nearest?

/-- The least integer that is not below. -/
def ceiling? : Number → Option Int
  | .int n => some n
  | .double x | .single x => x.ceiling?

/-- The integer part, toward zero. -/
def truncate? : Number → Option Int
  | .int n => some n
  | .double x | .single x => x.truncate?

end LayerStack.Number

namespace LayerStack.Value

/-- The integer in a value: that of a number, without its fraction, or the one that a text spells. -/
def whole? : Value → Option Int
  | .text s => Numeral.integer? s
  | v => v.quantity?.bind (·.truncate?)

end LayerStack.Value
