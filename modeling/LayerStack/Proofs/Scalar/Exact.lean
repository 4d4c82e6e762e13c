import Mathlib.Algebra.BigOperators.Fin
import Mathlib.Algebra.Field.Defs
import Mathlib.Order.Defs.LinearOrder
import LayerStack.Scalar

/-!
# LayerStack.Proofs.Scalar.Exact

Scalars that add and multiply exactly.

What is said of gradients holds of sums in any order, so it is said of scalars whose sums and products are those of a
commutative ring.  Everything else of an `ExactScalar` is as free as it is of a `Scalar`: its order, its quotients and its
elementary functions need not have anything to do with the ring.  Where quotients count, those of an `ExactField` are the
ones of a field, and where the larger of two numbers does, an `OrderedScalar` has a total order.
-/

namespace LayerStack

/-- Scalars whose sums and products are those of a commutative ring. -/
class ExactScalar (α : Type) extends Scalar α, CommRing α

/-- Scalars whose quotients are those of a field too, and among which an integer stands for itself. -/
class ExactField (α : Type) extends ExactScalar α, Field α where
  ofNumber_int : ∀ n : Int, Scalar.ofNumber (.int n) = (n : α)

/-- Scalars with a total order. -/
class OrderedScalar (α : Type) extends ExactScalar α, LinearOrder α

namespace Scalar

/-- A sum that starts from some number. -/
theorem foldl_add_eq_sum {α : Type} [AddCommMonoid α] (n : Nat) (f : Fin n → α) (a : α) :
    Fin.foldl n (fun total i => total + f i) a = a + ∑ i, f i := by
  induction n with
  | zero => exact (add_zero a).symm
  | succ n ih => rw [Fin.foldl_succ_last, Fin.sum_univ_castSucc, ih, add_assoc]

/-- The terms of an exact sum may be added in any order. -/
theorem sum_eq_sum {α : Type} [AddCommMonoid α] (n : Nat) (f : Fin n → α) : Scalar.sum n f = ∑ i, f i :=
  (foldl_add_eq_sum n f 0).trans (zero_add _)

/-- An exact scalar already is a real number. -/
theorem real_eq_self {α : Type} [ExactScalar α] (a : α) : Scalar.real a = a := by
  rw [Scalar.real, Scalar.realZero, Nat.cast_zero, zero_add]

theorem maximum_eq_max {α : Type} [OrderedScalar α] (a b : α) : Scalar.maximum a b = max a b := by
  rcases le_total a b with hle | hle
  · rw [max_eq_right hle, maximum, if_neg (not_lt_of_ge hle), if_pos hle]
  · rcases hle.lt_or_eq with hlt | rfl
    · rw [max_eq_left hle, maximum, if_pos hlt]
    · rw [max_self, maximum, if_neg (lt_irrefl b), if_pos le_rfl]

end Scalar

end LayerStack
