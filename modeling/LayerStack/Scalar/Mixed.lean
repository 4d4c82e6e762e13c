import LayerStack.Scalar.Machine
import LayerStack.Word

/-!
# LayerStack.Scalar.Mixed

Machine numbers of several formats side by side.

Tensors arrive as words or as doubles, and a hyperparameter may be a single.  Two words make a word, which wraps; two
singles make a single; all that is mixed otherwise is done in doubles.  A constant has no format of its own: a whole one
takes that of whatever it meets, so a sum that starts from zero has the format of its terms; one with a point takes that
of a single, and counts as a double beside everything else.
-/

namespace LayerStack

/-- A machine number. -/
inductive Mixed where
  /-- A whole constant. -/
  | whole (n : Int)
  /-- A constant with a point. -/
  | literal (x : Float)
  | word (n : Int64)
  | single (x : Float32)
  | double (x : Float)
deriving Repr, Inhabited

namespace Mixed

variable {β : Type}

def toFloat : Mixed → Float
  | .whole n => Machine.ofNumber (.int n)
  | .word n => n.toFloat
  | .literal x | .double x => x
  | .single x => x.toFloat

/-- Two numbers in the format they share. -/
def meet (integers : Int → Int → β) (words : Int64 → Int64 → β) (singles : Float32 → Float32 → β)
    (doubles : Float → Float → β) : Mixed → Mixed → β
  | .whole a, .whole b => integers a b
  | .word a, .word b => words a b
  | .whole a, .word b => words (.ofInt a) b
  | .word a, .whole b => words a (.ofInt b)
  | .single a, .single b => singles a b
  | .single a, .literal b => singles a b.toFloat32
  | .literal a, .single b => singles a.toFloat32 b
  | .single a, .whole b => singles a (Machine.ofNumber (.int b)).toFloat32
  | .whole a, .single b => singles (Machine.ofNumber (.int a)).toFloat32 b
  | a, b => doubles a.toFloat b.toFloat

/-- A function on numbers that are no words. -/
def lift (f : Float → Float) : Mixed → Mixed
  | .single x => .single (f x.toFloat).toFloat32
  | x => .double (f x.toFloat)

def add (a b : Mixed) : Mixed := meet (.whole <| · + ·) (.word <| · + ·) (.single <| · + ·) (.double <| · + ·) a b

def sub (a b : Mixed) : Mixed := meet (.whole <| · - ·) (.word <| · - ·) (.single <| · - ·) (.double <| · - ·) a b

def mul (a b : Mixed) : Mixed := meet (.whole <| · * ·) (.word <| · * ·) (.single <| · * ·) (.double <| · * ·) a b

/-- The quotient; that of integers is a double. -/
def div (a b : Mixed) : Mixed :=
  meet (fun m n => .double (Machine.ofNumber (.int m) / Machine.ofNumber (.int n))) (.double <| ·.toFloat / ·.toFloat)
    (.single <| · / ·) (.double <| · / ·) a b

def neg : Mixed → Mixed
  | .whole n => .whole (-n)
  | .word n => .word (-n)
  | .literal x => .literal (-x)
  | .single x => .single (-x)
  | .double x => .double (-x)

def lt (a b : Mixed) : Bool := meet (· < ·) (· < ·) (· < ·) (· < ·) a b

def le (a b : Mixed) : Bool := meet (· ≤ ·) (· ≤ ·) (· ≤ ·) (· ≤ ·) a b

/-- A hyperparameter as a constant, or as a single. -/
def ofNumber : Number → Mixed
  | .int n => .whole n
  | .single x => .single x.toFloat.toFloat32
  | .double x => .literal x.toFloat

def whole? : Mixed → Option Int
  | .whole n => some n
  | .word n => some n.toInt
  | x => Scalar.whole? x.toFloat

def truncate? : Mixed → Option Int
  | .whole n => some n
  | .word n => some n.toInt
  | x => Scalar.truncate? x.toFloat

instance : Elementary Mixed where
  exp := lift Elementary.exp
  expm1 := lift Elementary.expm1
  log := lift Elementary.log
  log1p := lift Elementary.log1p
  sqrt := lift Elementary.sqrt
  tanh := lift Elementary.tanh
  sin := lift Elementary.sin
  cos := lift Elementary.cos
  pow a b :=
    match a, b with
    | .single a, .single b => .single (a.pow b)
    | .single a, .literal b => .single (a.pow b.toFloat32)
    | a, b => .double (Elementary.pow a.toFloat b.toFloat)
  pi := .literal Elementary.pi

instance : Scalar Mixed where
  zero := .whole 0
  one := .literal 1
  add := add
  sub := sub
  mul := mul
  div := div
  neg := neg
  natCast n := .literal (Float.ofNat n)
  lt a b := a.lt b = true
  le a b := a.le b = true
  decidableLT _ _ := inferInstanceAs (Decidable (_ = true))
  decidableLE _ _ := inferInstanceAs (Decidable (_ = true))
  natPow x n := Elementary.pow x (.literal (Float.ofNat n))
  ofNumber := ofNumber
  whole? := whole?
  truncate? := truncate?
  toBinary64 x := Scalar.toBinary64 x.toFloat
  least? := some (.double (-1 / 0))
  isWord x := x matches .word _

end Mixed

end LayerStack
