import LayerStack.Proofs.Tensor.Dual
import LayerStack.Operator.FeedForward

/-!
# LayerStack.Proofs.Operator.Transpose.FeedForward

The ways back through affine maps and the feed-forward network.

Each is the transpose of the derivative of what it goes back through (`Tensor.Transposes`), for weights that do not move.
An affine map moves by its matrix, and a rectified number moves where it is above zero.
-/

namespace LayerStack

open Tensor

/-! ## Affine maps -/

namespace Affine

variable {α : Type} {m n : Nat}

/-- What a map adds to a unit. -/
def biasAt [Zero α] (a : Affine α m n) (i : Fin n) : α := a.bias.elim 0 (·.entry i)

theorem entry_apply [CommRing α] (a : Affine α m n) (x : Tensor α [m]) (i : Fin n) :
    (a.apply x).entry i = ∑ j, (a.weight.row i).entry j * x.entry j + a.biasAt i := by
  rw [apply, biasAt]
  cases a.bias with
  | none => rw [Tensor.apply, entry_ofEntries, dot_eq_sum_entry, Option.elim_none, add_zero]
  | some b => rw [entry_add, Tensor.apply, entry_ofEntries, dot_eq_sum_entry, Option.elim_some]

theorem entry_backward [CommRing α] (a : Affine α m n) (g : Tensor α [n]) (j : Fin m) :
    (a.backward g).entry j = ∑ i, g.entry i * (a.weight.row i).entry j := by
  rw [backward, applyTransposed, entry_ofEntries, Scalar.sum_eq_sum]

noncomputable section

/-- A map whose weights do not move. -/
def constant (a : Affine ℝ m n) : Affine Dual m n := ⟨a.weight.constants, a.bias.map constants⟩

theorem entry_weight_constant (a : Affine ℝ m n) (i : Fin n) (j : Fin m) :
    (a.constant.weight.row i).entry j = Dual.constant ((a.weight.row i).entry j) := by
  rw [constant, row_constants, entry_constants]

theorem biasAt_constant (a : Affine ℝ m n) (i : Fin n) : a.constant.biasAt i = Dual.constant (a.biasAt i) := by
  rw [biasAt, biasAt, constant]
  cases a.bias with
  | none => rfl
  | some b => exact entry_constants b i

theorem transposes_apply (a : Affine ℝ m n) : Transposes a.constant.apply a.apply fun _ g => a.backward g where
  values X := ext_entry fun i => by
    simp only [entry_values, entry_apply, biasAt_constant, entry_weight_constant, Dual.value_add,
      Dual.value_sum, Dual.value_mul, Dual.value_constant]
  slopes X g := by
    have hslope (i : Fin n) : ((a.constant.apply X).entry i).slope = ∑ j, (a.weight.row i).entry j * (X.entry j).slope := by
      simp only [entry_apply, biasAt_constant, entry_weight_constant, Dual.slope_add, Dual.slope_sum,
        Dual.slope_mul, Dual.slope_constant, Dual.value_constant, zero_mul, zero_add, add_zero]
    simp only [inner_eq_sum_entry, entry_slopes, hslope, entry_backward, Finset.mul_sum, Finset.sum_mul, mul_assoc]
    exact Finset.sum_comm

end

end Affine

/-! ## Rectified rows -/

namespace Activation

variable {n : Nat}

theorem entry_relu_onRow {α : Type} [Scalar α] (x : Tensor α [n]) (i : Fin n) :
    (Activation.relu.onRow x).entry i = Scalar.maximum 0 (x.entry i) :=
  entry_map _ x i

theorem entry_relu_backwardOnRow {α : Type} [Scalar α] (g x : Tensor α [n]) (i : Fin n) :
    (Activation.relu.backwardOnRow g x).entry i = g.entry i * Scalar.indicator (0 < x.entry i) :=
  entry_zipWith _ g x i

theorem transposes_relu : Transposes (Activation.relu.onRow (n := n)) Activation.relu.onRow fun x g =>
    Activation.relu.backwardOnRow g x where
  values X := ext_entry fun i => by
    rw [entry_values, entry_relu_onRow, entry_relu_onRow, Dual.value_maximum, entry_values, Dual.value_zero]
  slopes X g := by
    rw [inner_eq_sum_entry, inner_eq_sum_entry]
    refine Finset.sum_congr rfl fun i _ => ?_
    rw [entry_slopes, entry_relu_onRow, Dual.slope_maximum_zero, entry_relu_backwardOnRow, entry_values, entry_slopes]
    by_cases h : 0 < (X.entry i).value
    · simp [h, Scalar.indicator]
    · simp [h, Scalar.indicator, Scalar.realZero]

end Activation

/-! ## The network -/

namespace FeedForward

variable {d f : Nat}

/-- A network whose weights do not move. -/
noncomputable def constant (l : FeedForward ℝ d f) : FeedForward Dual d f :=
  ⟨l.activation, ⟨l.weights.linear1.constant, l.weights.linear2.constant⟩⟩

theorem transposes_output {l : FeedForward ℝ d f} (hl : l.activation = .relu) :
    Transposes (fun X => l.constant.output (l.constant.trace X)) (fun x => l.output (l.trace x)) fun x g =>
      l.backward (l.trace x) g := by
  obtain ⟨activation, weights⟩ := l
  obtain rfl : activation = .relu := hl
  have hhidden := weights.linear1.transposes_apply.comp Activation.transposes_relu
  have hresult := hhidden.comp weights.linear2.transposes_apply
  exact hresult

end FeedForward

end LayerStack
