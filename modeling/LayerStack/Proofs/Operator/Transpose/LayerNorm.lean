import Mathlib.Algebra.BigOperators.Field
import Mathlib.Tactic.FieldSimp
import LayerStack.Proofs.Tensor.Dual
import LayerStack.Operator.LayerNorm

/-!
# LayerStack.Proofs.Operator.Transpose.LayerNorm

The way back through the normalization of a row.

Moving a row moves its mean and its deviation too.  All in all a normalized number moves as the number itself does, less
the mean of all that moves, less its own share in how the row as a whole moves along itself, over the deviation
(`slope_normalized`).  That is symmetric, and the way back is the same sum over one denominator (`inner_slopes_normalized`).
-/

namespace LayerStack

open Tensor

/-! ## Scale and shift -/

namespace ScaleShift

variable {α : Type} {n : Nat}

/-- What a place of a row is scaled by. -/
def scaleAt [One α] (p : ScaleShift α [n]) (i : Fin n) : α := p.gamma.elim 1 (·.entry i)

/-- What a place of a row is shifted by. -/
def shiftAt [Zero α] (p : ScaleShift α [n]) (i : Fin n) : α := p.beta.elim 0 (·.entry i)

theorem entry_scaled [CommRing α] (p : ScaleShift α [n]) (x : Tensor α [n]) (i : Fin n) :
    (p.scaled x).entry i = x.entry i * p.scaleAt i := by
  rw [scaled, scaleAt]
  cases p.gamma with
  | none => exact (mul_one _).symm
  | some g => exact entry_zipWith _ x g i

theorem entry_apply [CommRing α] (p : ScaleShift α [n]) (x : Tensor α [n]) (i : Fin n) :
    (p.apply x).entry i = x.entry i * p.scaleAt i + p.shiftAt i := by
  rw [apply, shiftAt]
  cases p.beta with
  | none => rw [entry_scaled, Option.elim_none, add_zero]
  | some b => rw [entry_add, entry_scaled, Option.elim_some]

noncomputable section

/-- A scale and a shift that do not move. -/
def constant (p : ScaleShift ℝ [n]) : ScaleShift Dual [n] := ⟨p.gamma.map constants, p.beta.map constants⟩

theorem scaleAt_constant (p : ScaleShift ℝ [n]) (i : Fin n) : p.constant.scaleAt i = Dual.constant (p.scaleAt i) := by
  rw [scaleAt, scaleAt, constant]
  cases p.gamma with
  | none => rfl
  | some g => exact entry_constants g i

theorem shiftAt_constant (p : ScaleShift ℝ [n]) (i : Fin n) : p.constant.shiftAt i = Dual.constant (p.shiftAt i) := by
  rw [shiftAt, shiftAt, constant]
  cases p.beta with
  | none => rfl
  | some b => exact entry_constants b i

theorem transposes_apply (p : ScaleShift ℝ [n]) : Transposes p.constant.apply p.apply fun _ g => p.scaled g where
  values X := ext_entry fun i => by
    simp only [entry_values, entry_apply, scaleAt_constant, shiftAt_constant, Dual.value_add, Dual.value_mul,
      Dual.value_constant]
  slopes X g := by
    simp only [inner_eq_sum_entry, entry_slopes, entry_apply, entry_scaled, scaleAt_constant, shiftAt_constant, Dual.slope_add,
      Dual.slope_mul, Dual.slope_constant, Dual.value_constant, mul_zero, add_zero]
    exact Finset.sum_congr rfl fun i _ => by ring

end

end ScaleShift

/-! ## Normalized rows -/

namespace LayerNorm

variable {n : Nat}

theorem mean_eq_sum {α : Type} [ExactScalar α] (x : Tensor α [n]) : mean x = (∑ i, x.entry i) / (n : α) := by
  rw [mean, map_eq_self Scalar.real_eq_self, total_eq_sum_entry]

noncomputable section

/-- A normalization whose weights do not move. -/
def constant (l : LayerNorm ℝ [n]) : LayerNorm Dual [n] :=
  { epsilon := Dual.constant l.epsilon, bounded := l.bounded, weights := l.weights.constant, declared := l.declared }

theorem value_mean (X : Tensor Dual [n]) : (mean X).value = mean X.values := by
  simp only [mean_eq_sum, Dual.value_div, Dual.value_sum, Dual.value_natCast, entry_values]

theorem slope_mean (X : Tensor Dual [n]) : (mean X).slope = mean X.slopes := by
  simp only [mean_eq_sum, Dual.natCast_eq, Dual.slope_div_constant, Dual.slope_sum, entry_slopes]

/-- What is left of a row without its mean adds up to nothing. -/
theorem sum_sub_mean {α : Type} [ExactField α] [CharZero α] (x : Tensor α [n]) : ∑ i, (x.entry i - mean x) = 0 := by
  rcases n.eq_zero_or_pos with rfl | hn
  · rfl
  · have hne : (n : α) ≠ 0 := Nat.cast_ne_zero.mpr hn.ne'
    rw [Finset.sum_sub_distrib, Finset.sum_const, Finset.card_univ, Fintype.card_fin, nsmul_eq_mul, mean_eq_sum]
    field_simp
    ring

/-- How normalized numbers move along a gradient, and how the gradient goes back along a direction: either way it is the sum
of the gradient along the direction, less a product of two sums for the mean and one for the deviation. -/
theorem sum_normalized_comm {α : Type} [Field α] [CharZero α] (deviation : α) (d x v : Fin n → α) :
    ∑ i, d i * ((v i - (∑ j, v j) / n - x i * ((∑ j, x j * v j) / n)) / deviation) =
      ∑ i, (n * d i - ∑ j, d j - x i * ∑ j, d j * x j) / (n * deviation) * v i := by
  rcases n.eq_zero_or_pos with rfl | hn
  · rfl
  have hn : (n : α) ≠ 0 := Nat.cast_ne_zero.mpr hn.ne'
  have hforth (V Q : α) : ∑ i, d i * ((v i - V / n - x i * (Q / n)) / deviation) =
      (n * ∑ i, d i * v i - (∑ i, d i) * V - (∑ i, d i * x i) * Q) / (n * deviation) := by
    rw [Finset.mul_sum, Finset.sum_mul, Finset.sum_mul, ← Finset.sum_sub_distrib, ← Finset.sum_sub_distrib,
      Finset.sum_div]
    refine Finset.sum_congr rfl fun i _ => ?_
    field_simp
  have hback (D P : α) : ∑ i, (n * d i - D - x i * P) / (n * deviation) * v i =
      (n * ∑ i, d i * v i - D * ∑ i, v i - P * ∑ i, x i * v i) / (n * deviation) := by
    rw [Finset.mul_sum, Finset.mul_sum, Finset.mul_sum, ← Finset.sum_sub_distrib, ← Finset.sum_sub_distrib,
      Finset.sum_div]
    refine Finset.sum_congr rfl fun i _ => ?_
    ring
  rw [hforth, hback]

theorem variance_eq (x : Tensor ℝ [n]) : variance x = (∑ i, (x.entry i - mean x) ^ 2) / n := by
  rw [variance, mean_eq_sum]
  simp only [entry_map, Scalar.square, sq]

theorem variance_nonneg (x : Tensor ℝ [n]) : 0 ≤ variance x := by
  rw [variance_eq]
  positivity

theorem value_variance (X : Tensor Dual [n]) : (variance X).value = variance X.values := by
  rw [variance, variance, value_mean]
  refine congrArg mean (ext_entry fun i => ?_)
  simp only [entry_values, entry_map, Scalar.square, Dual.value_mul, Dual.value_sub, value_mean]

/-- The variance moves as the row does along what is left of it without its mean. -/
theorem slope_variance (X : Tensor Dual [n]) :
    (variance X).slope = 2 * (∑ i, (X.values.entry i - mean X.values) * X.slopes.entry i) / n := by
  have hmean := sum_sub_mean X.values
  rw [variance, slope_mean, mean_eq_sum]
  simp only [entry_slopes, entry_map, Scalar.square, Dual.slope_mul, Dual.slope_sub, Dual.value_sub, value_mean, slope_mean,
    entry_values] at hmean ⊢
  refine congrArg (· / (n : ℝ)) ?_
  calc ∑ i, (((X.entry i).slope - mean X.slopes) * ((X.entry i).value - mean X.values) +
        ((X.entry i).value - mean X.values) * ((X.entry i).slope - mean X.slopes))
      = ∑ i, (2 * (((X.entry i).value - mean X.values) * (X.entry i).slope) -
          2 * mean X.slopes * ((X.entry i).value - mean X.values)) := Finset.sum_congr rfl fun i _ => by ring
    _ = 2 * ∑ i, ((X.entry i).value - mean X.values) * (X.entry i).slope := by
        rw [Finset.sum_sub_distrib, ← Finset.mul_sum, ← Finset.mul_sum, hmean, mul_zero, sub_zero]

section Moving

variable (l : LayerNorm ℝ [n]) (X : Tensor Dual [n])

theorem entry_normalized {α : Type} [ExactScalar α] (l : LayerNorm α [n]) (x : Tensor α [n]) (i : Fin n) :
    (l.trace x).normalized.entry i = (x.entry i - mean x) / (l.trace x).deviation :=
  entry_map _ x i

theorem value_deviation : (l.constant.trace X).deviation.value = (l.trace X.values).deviation :=
  congrArg (fun v => Elementary.sqrt (v + l.epsilon)) (value_variance X)

theorem values_normalized : (l.constant.trace X).normalized.values = (l.trace X.values).normalized :=
  ext_entry fun i => by
    rw [entry_values, entry_normalized, entry_normalized, Dual.value_div, Dual.value_sub, value_mean, value_deviation,
      entry_values]

variable {l}

theorem deviation_pos (hepsilon : 0 < l.epsilon) (x : Tensor ℝ [n]) : 0 < (l.trace x).deviation :=
  Real.sqrt_pos.mpr (by linarith [variance_nonneg x])

theorem slope_deviation (hepsilon : 0 < l.epsilon) : (l.constant.trace X).deviation.slope =
    (∑ i, (X.values.entry i - mean X.values) * X.slopes.entry i) / (n * (l.trace X.values).deviation) := by
  have hmoving : (variance X + Dual.constant l.epsilon).value = variance X.values + l.epsilon :=
    congrArg (· + l.epsilon) (value_variance X)
  have hne : (variance X + Dual.constant l.epsilon).value ≠ 0 := by
    rw [hmoving]
    linarith [variance_nonneg X.values]
  have hslope := Dual.slope_sqrt hne
  rw [hmoving, Dual.slope_add, Dual.slope_constant, add_zero, slope_variance] at hslope
  refine hslope.trans ?_
  show _ = _ / (n * Elementary.sqrt (variance X.values + l.epsilon))
  ring

/-- How a normalized number moves. -/
theorem slope_normalized (hepsilon : 0 < l.epsilon) (i : Fin n) :
    ((l.constant.trace X).normalized.entry i).slope =
      (X.slopes.entry i - mean X.slopes - (l.trace X.values).normalized.entry i *
        ((∑ j, (l.trace X.values).normalized.entry j * X.slopes.entry j) / n)) / (l.trace X.values).deviation := by
  have hdeviation := (deviation_pos hepsilon X.values).ne'
  have hn : (n : ℝ) ≠ 0 := Nat.cast_ne_zero.mpr (Nat.ne_of_gt i.pos)
  have hshare : ∑ j, (l.trace X.values).normalized.entry j * X.slopes.entry j =
      (∑ j, (X.values.entry j - mean X.values) * X.slopes.entry j) / (l.trace X.values).deviation := by
    rw [Finset.sum_div]
    refine Finset.sum_congr rfl fun j _ => ?_
    rw [entry_normalized]
    ring
  rw [entry_normalized, Dual.slope_div, Dual.slope_sub, Dual.value_sub, value_mean, slope_mean, value_deviation,
    slope_deviation X hepsilon, hshare, entry_normalized, ← entry_values, ← entry_slopes]
  field_simp

/-- The way back through a normalized row is the transpose of how it moves. -/
theorem inner_slopes_normalized (hepsilon : 0 < l.epsilon) (d : Tensor ℝ [n]) :
    d.inner (l.constant.trace X).normalized.slopes =
      (backwardScaled (n : ℝ) (l.trace X.values) d d.total).inner X.slopes := by
  rw [inner_eq_sum_entry, inner_eq_sum_entry]
  refine (Finset.sum_congr rfl fun i _ => ?_).trans ((sum_normalized_comm (l.trace X.values).deviation d.entry
    (l.trace X.values).normalized.entry X.slopes.entry).trans (Finset.sum_congr rfl fun i _ => ?_))
  · rw [entry_slopes, slope_normalized X hepsilon, mean_eq_sum]
  · rw [backwardScaled, entry_zipWith, dot_eq_sum_entry, total_eq_sum_entry]

end Moving

/-- The way back through a normalization with a scale and a shift. -/
theorem transposes_output {l : LayerNorm ℝ [n]} (hepsilon : 0 < l.epsilon) :
    Transposes (fun X => l.constant.output (l.constant.trace X)) (fun x => l.output (l.trace x)) fun x g =>
      l.backward (l.trace x) g := by
  have hnormalized : Transposes (fun X => (l.constant.trace X).normalized) (fun x => (l.trace x).normalized)
      fun x d => backwardScaled (n : ℝ) (l.trace x) d d.total :=
    ⟨fun X => values_normalized l X, fun X d => inner_slopes_normalized X hepsilon d⟩
  have hresult := hnormalized.comp l.weights.transposes_apply
  exact hresult

end

end LayerNorm

end LayerStack
