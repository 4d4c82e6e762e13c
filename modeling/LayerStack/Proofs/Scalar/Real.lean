import Mathlib.Analysis.SpecialFunctions.Pow.Real
import Mathlib.Analysis.SpecialFunctions.Trigonometric.Basic
import Mathlib.Analysis.Complex.Trigonometric
import LayerStack.Proofs.Scalar.Exact
import LayerStack.Proofs.Number

/-!
# LayerStack.Proofs.Scalar.Real

The real numbers as scalars.

Machine numbers stand for real ones.  As scalars those add, multiply and divide exactly, their elementary functions are
the functions themselves, and a hyperparameter is the real number that it is exactly.  No real number is below all
others.  What needs no more than an ordered field of scalars is said of any (`OrderedField`).
-/

namespace LayerStack

/-- Scalars of an ordered field, among which a hyperparameter stands for the number that it is exactly. -/
class OrderedField (α : Type) extends ExactField α, OrderedScalar α, IsStrictOrderedRing α where
  ofNumber_exact : ∀ {x : Number} {q : ℚ}, x.rational? = some q → Scalar.ofNumber x = (q : α)

noncomputable section

namespace Number

/-- The real number that a hyperparameter is; one that is none at all counts as zero. -/
def toReal : Number → ℝ
  | .single x => ((rational? (.double x)).getD 0 : ℚ)
  | x => (x.rational?.getD 0 : ℚ)

end Number

namespace Binary64

/-- The double nearest to a real number.  Halfway between two doubles lies a whole number of times two to the power of
-1075, so of all other numbers it is enough to know between which two such numbers they lie. -/
def ofReal (x : ℝ) : Binary64 :=
  let below := ⌊x * 2 ^ 1075⌋
  ofFraction (2 * below + if x * 2 ^ 1075 = below then 0 else 1) (2 ^ 1076)

end Binary64

instance : Elementary ℝ where
  exp := Real.exp
  expm1 x := Real.exp x - 1
  log := Real.log
  log1p x := Real.log (1 + x)
  sqrt := Real.sqrt
  tanh := Real.tanh
  sin := Real.sin
  cos := Real.cos
  pow x y := x ^ y
  pi := Real.pi

instance : Scalar ℝ where
  decidableLT := inferInstance
  decidableLE := inferInstance
  natPow x n := x ^ n
  ofNumber := Number.toReal
  whole? x := if x = ⌊x⌋ then some ⌊x⌋ else none
  truncate? x := some (if 0 ≤ x then ⌊x⌋ else ⌈x⌉)
  toBinary64 := Binary64.ofReal
  least? := none
  isWord _ := false

instance : ExactScalar ℝ where
  __ := (inferInstance : Scalar ℝ)
  __ := (inferInstance : CommRing ℝ)

instance : ExactField ℝ where
  __ := (inferInstance : ExactScalar ℝ)
  __ := (inferInstance : Field ℝ)
  ofNumber_int n := by
    show Number.toReal _ = _
    simp [Number.toReal, Number.rational?, Number.ratio?]

instance : OrderedScalar ℝ where
  __ := (inferInstance : ExactScalar ℝ)
  __ := (inferInstance : LinearOrder ℝ)

instance : OrderedField ℝ where
  __ := (inferInstance : ExactField ℝ)
  __ := (inferInstance : OrderedScalar ℝ)
  __ := (inferInstance : IsStrictOrderedRing ℝ)
  ofNumber_exact {x q} h := by
    have hvalue : Number.toReal x = (x.rational?.getD 0 : ℚ) := by
      cases x with
      | single y => contradiction
      | int n => rfl
      | double y => rfl
    show Number.toReal x = _
    rw [hvalue, h, Option.getD_some]

end

end LayerStack
