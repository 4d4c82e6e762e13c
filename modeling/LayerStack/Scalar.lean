import LayerStack.Value

/-!
# LayerStack.Scalar

The numbers a model computes with.

Every numeric definition of the library is written for any type of scalars.  A definition that only adds and
multiplies asks for no more than that, so it can be read in any ring; those that need more ask for `Scalar`, which adds
an order, the elementary functions, and the values of hyperparameters.  Comparisons are made so that a value that is not
a number spreads: it is not above, below or equal to anything, itself included.
-/

namespace LayerStack

/-- The elementary functions.  `expm1 x` is `exp x - 1` and `log1p x` is `log (1 + x)`, each without the loss of digits
near zero. -/
class Elementary (α : Type) where
  exp : α → α
  expm1 : α → α
  log : α → α
  log1p : α → α
  sqrt : α → α
  tanh : α → α
  sin : α → α
  cos : α → α
  pow : α → α → α
  pi : α

/-- The numbers a model computes with. -/
class Scalar (α : Type) extends Zero α, One α, Add α, Sub α, Mul α, Div α, Neg α, NatCast α, LT α, LE α,
    Elementary α where
  decidableLT : DecidableLT α
  decidableLE : DecidableLE α
  /-- A natural power. -/
  natPow : α → Nat → α
  /-- The scalar nearest to a hyperparameter. -/
  ofNumber : Number → α
  /-- The integer a whole scalar equals. -/
  whole? : α → Option Int
  /-- The integer part, toward zero, of a scalar that has one. -/
  truncate? : α → Option Int
  /-- The nearest double. -/
  toBinary64 : α → Binary64
  /-- The scalar below all others, if there is one. -/
  least? : Option α
  /-- Is a scalar a word, among which none is infinite? -/
  isWord : α → Bool

namespace Scalar

variable {α : Type}

instance [Scalar α] : DecidableLT α := Scalar.decidableLT

instance [Scalar α] : DecidableLE α := Scalar.decidableLE

instance [Scalar α] : Pow α Nat := ⟨Scalar.natPow⟩

/-- The decimal `digits * 10 ^ -places`. -/
def decimal [Scalar α] (digits places : Nat) : α := ofNumber (.double (.ofDecimal false digits (-(places : Int))))

/-- One half. -/
def half [Scalar α] : α := 1 / ((2 : Nat) : α)

def square [Mul α] (x : α) : α := x * x

/-- Zero as a real number, where whole numbers have a format of their own. -/
def realZero [NatCast α] : α := ((0 : Nat) : α)

/-- A scalar as a real number: where whole numbers have a format of their own, it leaves that. -/
def real [Add α] [NatCast α] (a : α) : α := realZero + a

/-- Is a power of a finite scalar past the doubles? -/
def overruns [Scalar α] (a : α) (n : Nat) : Bool :=
  match toBinary64 a, toBinary64 (a ^ n) with
  | .finite .., .infinite _ => true
  | _, _ => false

/-- The larger of two scalars. -/
def maximum [Add α] [LT α] [DecidableLT α] [LE α] [DecidableLE α] (a b : α) : α :=
  if b < a then a else if a ≤ b then b else a + b

/-- The smaller of two scalars. -/
def minimum [Add α] [LT α] [DecidableLT α] [LE α] [DecidableLE α] (a b : α) : α :=
  if a < b then a else if b ≤ a then b else a + b

def abs [Zero α] [Neg α] [LT α] [DecidableLT α] (a : α) : α := if a < 0 then -a else a

/-- The nearest scalar from `least` to `greatest`. -/
def clamp [Add α] [LT α] [DecidableLT α] [LE α] [DecidableLE α] (least greatest a : α) : α :=
  minimum (maximum a least) greatest

/-- Does a scalar take the lead over the best one so far?  The first of equal ones leads, and what is not a number
leads over all numbers. -/
def leads [LE α] [DecidableLE α] (a best : α) : Bool := best ≤ best ∧ ¬ a ≤ best

/-- The sum of `n` terms, from the first to the last. -/
def sum [Zero α] [Add α] (n : Nat) (f : Fin n → α) : α := Fin.foldl n (fun total i => total + f i) 0

/-- One where a condition holds, zero elsewhere; both are real numbers. -/
def indicator [One α] [NatCast α] (b : Bool) : α := if b then 1 else realZero

end Scalar

end LayerStack
