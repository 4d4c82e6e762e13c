import Mathlib.Algebra.BigOperators.Field
import Mathlib.Algebra.Order.BigOperators.Group.Finset
import Mathlib.Tactic.FieldSimp
import LayerStack.Proofs.Tensor.Matrix
import LayerStack.Proofs.Operator.Transpose.Dropout
import LayerStack.Proofs.Operator.Transpose.FeedForward

/-!
# LayerStack.Proofs.Operator.Transpose.Attention

The way back through attention.

Softmax weights move as their scores do, less the mean of all that moves under the weights (`slopes_softmax`); what the
largest score does cancels.  An answer moves with the weights and with the values, and a score with the query and with the
key.  Each of these is a product, so going back each side of it meets the gradient with the other (`inner_movedAnswer`).
The heads are slices of what three affine maps make of one sequence, so its gradient is the sum of three
(`MultiHeadAttention.transposes_output`).
-/

namespace LayerStack

open Tensor

/-! ## Softmax -/

namespace Tensor

variable {α β : Type} {n : Nat}

/-- The largest of some scores. -/
def peak [Scalar α] (x : Tensor α [n]) : α := x.reduce Scalar.maximum 0

/-- A fold of scores in another type of scalars. -/
theorem map_foldl {φ : α → β} {f : α → α → α} {f' : β → β → β} (hφ : ∀ a b, φ (f a b) = f' (φ a) (φ b)) (k : Nat)
    (e : Fin k → α) (a : α) :
    φ (Fin.foldl k (fun acc i => f acc (e i)) a) = Fin.foldl k (fun acc i => f' acc (φ (e i))) (φ a) := by
  induction k with
  | zero => rfl
  | succ k ih => rw [Fin.foldl_succ_last, Fin.foldl_succ_last, hφ, ih]

theorem sumRows_eq_sum [AddCommMonoid α] : {n : Nat} → (x : Tensor α [n]) → x.sumRows = ∑ i, x.entry i
  | 0, _ => rfl
  | n + 1, x => by
      rw [Fin.sum_univ_succ]
      exact Scalar.foldl_add_eq_sum n (fun i => x.entry i.succ) (x.entry 0)

theorem entry_softmax [ExactScalar α] (x : Tensor α [n]) (i : Fin n) :
    x.softmax.entry i = Elementary.exp (x.entry i - x.peak) / ∑ j, Elementary.exp (x.entry j - x.peak) := by
  let powers : Tensor α [n] := x.mapRows (t := []) fun r => Elementary.exp (r - x.peak)
  have hpower (j : Fin n) : powers.entry j = Elementary.exp (x.entry j - x.peak) := entry_mapRows _ x j
  have hentry : x.softmax.entry i = powers.entry i / powers.sumRows := entry_mapRows _ powers i
  rw [hentry, sumRows_eq_sum, hpower]
  simp only [hpower]

theorem entry_softmaxBackward [CommRing α] (g w : Tensor α [n]) (i : Fin n) :
    (softmaxBackward g w).entry i = w.entry i * (g.entry i - ∑ j, g.entry j * w.entry j) := by
  rw [softmaxBackward, entry_zipWith, dot_eq_sum_entry]

/-- The way back through weights is the same in either direction. -/
theorem inner_softmaxBackward [CommRing α] (g w x : Tensor α [n]) :
    g.inner (softmaxBackward x w) = (softmaxBackward g w).inner x := by
  have hform (a b : Tensor α [n]) : a.inner (softmaxBackward b w) =
      ∑ i, a.entry i * b.entry i * w.entry i - (∑ i, a.entry i * w.entry i) * ∑ i, b.entry i * w.entry i := by
    rw [inner_eq_sum_entry, Finset.sum_mul, ← Finset.sum_sub_distrib]
    refine Finset.sum_congr rfl fun i _ => ?_
    rw [entry_softmaxBackward]
    ring
  rw [inner_comm _ x, hform, hform, mul_comm (∑ i, g.entry i * w.entry i)]
  refine congrArg (· - _) (Finset.sum_congr rfl fun i _ => ?_)
  rw [mul_comm (g.entry i)]

noncomputable section

theorem value_peak : {n : Nat} → (X : Tensor Dual [n]) → X.peak.value = X.values.peak
  | 0, _ => rfl
  | n + 1, X => by
      have hfold := map_foldl Dual.value_maximum n (fun i => X.entry i.succ) (X.entry 0)
      simp only [← entry_values] at hfold
      exact hfold

theorem values_softmax (X : Tensor Dual [n]) : X.softmax.values = X.values.softmax :=
  ext_entry fun i => by
    simp only [entry_values, entry_softmax, Dual.value_div, Dual.value_sum, Dual.value_exp, Dual.value_sub, value_peak]

/-- Weights move as their scores do, less the mean of that under the weights. -/
theorem slopes_softmax (X : Tensor Dual [n]) : X.softmax.slopes = softmaxBackward X.slopes X.values.softmax :=
  ext_entry fun i => by
    have hpositive : 0 < ∑ j, Elementary.exp ((X.entry j).value - X.values.peak) :=
      Finset.sum_pos (fun j _ => Real.exp_pos _) ⟨i, Finset.mem_univ i⟩
    have hne := hpositive.ne'
    have hmean : ∑ j, X.slopes.entry j * X.values.softmax.entry j =
        (∑ j, Elementary.exp ((X.entry j).value - X.values.peak) * (X.entry j).slope) /
          ∑ j, Elementary.exp ((X.entry j).value - X.values.peak) := by
      rw [Finset.sum_div]
      refine Finset.sum_congr rfl fun j _ => ?_
      simp only [entry_softmax, entry_slopes, entry_values]
      ring
    rw [entry_softmaxBackward, hmean, entry_slopes, entry_softmax, entry_softmax, Dual.slope_div]
    simp only [Dual.value_sum, Dual.slope_sum, Dual.value_exp, Dual.slope_exp, Dual.value_sub, Dual.slope_sub, value_peak,
      entry_values, entry_slopes, mul_sub, Finset.sum_sub_distrib, ← Finset.sum_mul]
    field_simp
    ring

end

end Tensor

/-! ## One head -/

namespace Attention

variable {q k d v : Nat}

section Moving

variable {α : Type} [Field α]

/-- How scores move with queries and keys. -/
def movedScores (root : α) (query query' : Tensor α [q, d]) (key key' : Tensor α [k, d]) : Tensor α [q, k] :=
  ((query'.product key.transpose).add (query.product key'.transpose)).map (· / root)

/-- How weights move with scores. -/
def movedWeights (weights scores' : Tensor α [q, k]) : Tensor α [q, k] :=
  ofFn fun i => softmaxBackward (scores'.row i) (weights.row i)

/-- How an answer moves with weights and values. -/
def movedAnswer (weights weights' : Tensor α [q, k]) (mask : Option (Tensor α [q, k])) (value value' : Tensor α [k, v]) :
    Tensor α [q, v] :=
  (answer weights' mask value).add (answer weights mask value')

theorem inner_map_div (root : α) (g x : Tensor α [q, k]) : g.inner (x.map (· / root)) = (g.map (· / root)).inner x := by
  rw [inner_eq_sum_matrix, inner_eq_sum_matrix]
  simp only [row_map, entry_map, mul_div_assoc, div_mul_eq_mul_div]

theorem inner_movedScores (root : α) (g : Tensor α [q, k]) (query query' : Tensor α [q, d]) (key key' : Tensor α [k, d]) :
    g.inner (movedScores root query query' key key') =
      ((g.map (· / root)).product key).inner query' + ((transpose (g.map (· / root))).product query).inner key' := by
  rw [movedScores, inner_map_div, inner_add, inner_product_left, inner_product_right, inner_transpose, transpose_product,
    transpose_transpose, transpose_transpose]

theorem inner_movedWeights (g weights scores' : Tensor α [q, k]) :
    g.inner (movedWeights weights scores') = (movedWeights weights g).inner scores' := by
  rw [inner_eq_sum_row, inner_eq_sum_row]
  refine Finset.sum_congr rfl fun i _ => ?_
  rw [movedWeights, movedWeights, row_ofFn, row_ofFn, inner_softmaxBackward]

theorem backwardScores_eq (root : α) (weights : Tensor α [q, k]) (mask : Option (Tensor α [q, k])) (value : Tensor α [k, v])
    (g : Tensor α [q, v]) : backwardScores root weights mask value g =
      (movedWeights weights (Dropout.masked (g.product value.transpose) mask)).map (· / root) :=
  ext_row fun i => by rw [backwardScores, movedWeights, row_ofFn, row_map, row_ofFn]

/-- The way back through an answer is the transpose of how the answer moves. -/
theorem inner_movedAnswer (root : α) (query query' : Tensor α [q, d]) (key key' : Tensor α [k, d])
    (value value' : Tensor α [k, v]) (weights : Tensor α [q, k]) (mask : Option (Tensor α [q, k])) (g : Tensor α [q, v]) :
    g.inner (movedAnswer weights (movedWeights weights (movedScores root query query' key key')) mask value value') =
      (backward root query key value weights mask g).query.inner query' +
        (backward root query key value weights mask g).key.inner key' +
        (backward root query key value weights mask g).value.inner value' := by
  have hvalue : g.inner (answer weights mask value') =
      (backward root query key value weights mask g).value.inner value' := by
    rw [answer, inner_product_right]
    rfl
  have hweights (weights' : Tensor α [q, k]) : g.inner (answer weights' mask value) =
      (Dropout.masked (g.product value.transpose) mask).inner weights' := by
    rw [answer, inner_product_left, ← Dropout.masked_inner]
  rw [movedAnswer, inner_add, hweights, hvalue, inner_movedWeights, inner_movedScores, ← backwardScores_eq]
  rfl

end Moving

noncomputable section

theorem values_transpose {n m : Nat} (X : Tensor Dual [n, m]) : X.transpose.values = transpose X.values :=
  map_transpose _ X

theorem slopes_transpose {n m : Nat} (X : Tensor Dual [n, m]) : X.transpose.slopes = transpose X.slopes :=
  map_transpose _ X

theorem values_product {n m : Nat} (X : Tensor Dual [n, k]) (Y : Tensor Dual [k, m]) :
    (X.product Y).values = X.values.product Y.values :=
  ext_matrix fun i j => by
    simp only [row_values, entry_values, entry_product, Dual.value_sum, Dual.value_mul]

theorem slopes_product {n m : Nat} (X : Tensor Dual [n, k]) (Y : Tensor Dual [k, m]) :
    (X.product Y).slopes = (X.slopes.product Y.values).add (X.values.product Y.slopes) :=
  ext_matrix fun i j => by
    simp only [row_slopes, row_values, row_add, entry_slopes, entry_values, entry_add, entry_product, Dual.slope_sum,
      Dual.slope_mul, Finset.sum_add_distrib]

theorem root_dual (d : Nat) : (root d : Dual) = Dual.constant (root d) := Dual.sqrt_constant d

variable (X : Tensor Dual [q, d]) (Y : Tensor Dual [k, d]) (Z : Tensor Dual [k, v])

theorem values_scores (r : ℝ) : (scores (Dual.constant r) X Y).values = scores r X.values Y.values := by
  have hdivided (x : Tensor Dual [q, k]) : (x.map (· / Dual.constant r)).values = x.values.map (· / r) :=
    ext_matrix fun i j => by simp only [row_values, entry_values, row_map, entry_map, Dual.value_div, Dual.value_constant]
  rw [scores, scores, hdivided, values_product, values_transpose]

theorem slopes_scores (r : ℝ) :
    (scores (Dual.constant r) X Y).slopes = movedScores r X.values X.slopes Y.values Y.slopes := by
  have hdivided (x : Tensor Dual [q, k]) : (x.map (· / Dual.constant r)).slopes = x.slopes.map (· / r) :=
    ext_matrix fun i j => by simp only [row_slopes, entry_slopes, row_map, entry_map, Dual.slope_div_constant]
  rw [scores, movedScores, hdivided, slopes_product, values_transpose, slopes_transpose]

theorem values_weights : (weights X Y).values = weights X.values Y.values :=
  ext_row fun i => by
    rw [weights, weights, row_values, row_mapRows, row_mapRows, values_softmax, root_dual, ← row_values, values_scores]

theorem slopes_weights : (weights X Y).slopes =
    movedWeights (weights X.values Y.values) (movedScores (root d) X.values X.slopes Y.values Y.slopes) :=
  ext_row fun i => by
    rw [weights, weights, movedWeights, row_ofFn, row_slopes, row_mapRows, row_mapRows, slopes_softmax, root_dual,
      ← row_values, ← row_slopes, values_scores, slopes_scores]

theorem values_answer (W : Tensor Dual [q, k]) (mask : Option (Tensor ℝ [q, k])) :
    (answer W (mask.map constants) Z).values = answer W.values mask Z.values := by
  rw [answer, answer, values_product, Dropout.values_masked]

theorem slopes_answer (W : Tensor Dual [q, k]) (mask : Option (Tensor ℝ [q, k])) :
    (answer W (mask.map constants) Z).slopes = movedAnswer W.values W.slopes mask Z.values Z.slopes := by
  rw [answer, movedAnswer, answer, answer, slopes_product, Dropout.values_masked, Dropout.slopes_masked]

end

end Attention

/-! ## Heads -/

namespace MultiHeadAttention

variable {d h k v s : Nat}

/-- The heads that an affine map cuts a sequence into. -/
def heads {α : Type} [Zero α] [Add α] [Mul α] (a : Affine α d (h * k)) (x : Tensor α [s, d]) : Tensor α [h, s, k] :=
  splitHeads (x.mapRows a.apply)

/-- The answers of all heads. -/
def answers {α : Type} [Scalar α] (query key : Tensor α [h, s, k]) (mask : Option (Tensor α [h, s, s]))
    (value : Tensor α [h, s, v]) : Tensor α [h, s, v] :=
  ofFn fun a => Attention.answer (Attention.weights (query.row a) (key.row a)) (headMask mask a) (value.row a)

noncomputable section

/-- A layer whose weights do not move. -/
def constant (l : MultiHeadAttention ℝ d h k v) : MultiHeadAttention Dual d h k v :=
  { dropout := Dual.constant l.dropout
    weights := ⟨l.weights.query.constant, l.weights.key.constant, l.weights.value.constant, l.weights.output.constant⟩ }

theorem headMask_constants (mask : Option (Tensor ℝ [h, s, s])) (a : Fin h) :
    headMask (mask.map constants) a = (headMask mask a).map constants := by
  cases mask with
  | none => rfl
  | some m => exact congrArg some (row_constants m a)

theorem transposes_heads (a : Affine ℝ d (h * k)) :
    Transposes (heads (s := s) (h := h) a.constant) (heads a) fun _ g => g.mergeHeads.mapRows a.backward := by
  have hsplit : Transposes (fun X : Tensor Dual [s, h * k] => (splitHeads X : Tensor Dual [h, s, k])) splitHeads
      fun _ g => g.mergeHeads :=
    ⟨fun X => map_splitHeads _ X, fun X g => by rw [slopes, map_splitHeads, inner_splitHeads]; rfl⟩
  have hheads := (a.transposes_apply.mapRows s).comp hsplit
  exact hheads

variable (Q K : Tensor Dual [h, s, k]) (V : Tensor Dual [h, s, v]) (mask : Option (Tensor ℝ [h, s, s]))

theorem values_answers : (answers Q K (mask.map constants) V).values = answers Q.values K.values mask V.values :=
  ext_row fun a => by
    rw [row_values, answers, answers, row_ofFn, row_ofFn, headMask_constants, Attention.values_answer, Attention.values_weights,
      row_values, row_values, row_values]

/-- The gradients of one head. -/
def headGradients (q key : Tensor ℝ [h, s, k]) (value g : Tensor ℝ [h, s, v]) (a : Fin h) : Attention.Gradients ℝ s s k v :=
  Attention.backward (Attention.root k) (q.row a) (key.row a) (value.row a) (Attention.weights (q.row a) (key.row a))
    (headMask mask a) (g.row a)

theorem inner_slopes_answers (g : Tensor ℝ [h, s, v]) : g.inner (answers Q K (mask.map constants) V).slopes =
    inner (ofFn fun a => (headGradients mask Q.values K.values V.values g a).query) Q.slopes +
      inner (ofFn fun a => (headGradients mask Q.values K.values V.values g a).key) K.slopes +
      inner (ofFn fun a => (headGradients mask Q.values K.values V.values g a).value) V.slopes := by
  simp only [inner_eq_sum_row (n := h), ← Finset.sum_add_distrib]
  refine Finset.sum_congr rfl fun a _ => ?_
  rw [row_slopes, answers, row_ofFn, row_ofFn, row_ofFn, row_ofFn, headMask_constants, Attention.slopes_answer,
    Attention.slopes_weights, Attention.values_weights, Attention.inner_movedAnswer]
  simp only [headGradients, row_values, row_slopes]

/-- What reaches the sequence through the heads of its queries, keys and values. -/
def backwardAnswers (l : MultiHeadAttention ℝ d h k v) (x : Tensor ℝ [s, d]) (g : Tensor ℝ [h, s, v]) : Tensor ℝ [s, d] :=
  let back := headGradients mask (heads l.weights.query x) (heads l.weights.key x) (heads l.weights.value x) g
  ((mapRows l.weights.query.backward (mergeHeads (ofFn fun a => (back a).query))).add
    (mapRows l.weights.key.backward (mergeHeads (ofFn fun a => (back a).key)))).add
    (mapRows l.weights.value.backward (mergeHeads (ofFn fun a => (back a).value)))

theorem transposes_answers (l : MultiHeadAttention ℝ d h k v) :
    Transposes
      (fun X : Tensor Dual [s, d] => answers (heads l.weights.query.constant X) (heads l.weights.key.constant X)
        (mask.map constants) (heads l.weights.value.constant X))
      (fun x => answers (heads l.weights.query x) (heads l.weights.key x) mask (heads l.weights.value x))
      (backwardAnswers mask l) where
  values X := by
    rw [values_answers, (transposes_heads l.weights.query).values, (transposes_heads l.weights.key).values,
      (transposes_heads l.weights.value).values]
  slopes X g := by
    rw [inner_slopes_answers, (transposes_heads l.weights.query).slopes, (transposes_heads l.weights.key).slopes,
      (transposes_heads l.weights.value).slopes, (transposes_heads l.weights.query).values,
      (transposes_heads l.weights.key).values, (transposes_heads l.weights.value).values, backwardAnswers, add_inner, add_inner]

theorem output_trace {α : Type} [Scalar α] (l : MultiHeadAttention α d h k v) (mask : Option (Tensor α [h, s, s]))
    (x : Tensor α [s, d]) : l.output (l.trace mask x) = mapRows l.weights.output.apply
      (mergeHeads (answers (heads l.weights.query x) (heads l.weights.key x) mask (heads l.weights.value x))) := by
  refine congrArg (fun y => mapRows l.weights.output.apply (mergeHeads y)) (ext_row fun a => ?_)
  rw [answers, row_ofFn, row_ofFn, row_ofFn]
  rfl

theorem backward_trace (l : MultiHeadAttention ℝ d h k v) (x g : Tensor ℝ [s, d]) :
    (l.backward (l.trace mask x) g).1 = backwardAnswers mask l x (splitHeads (g.mapRows l.weights.output.backward)) := by
  simp only [backward, overRows, entry_ofEntries, backwardAnswers, headGradients, trace, row_ofFn]
  rfl

variable {Q K V mask}

/-- The way back through the attention of a sequence over itself. -/
theorem transposes_output (l : MultiHeadAttention ℝ d h k v) (mask : Option (Tensor ℝ [h, s, s])) :
    Transposes (fun X => l.constant.output (l.constant.trace (mask.map constants) X)) (fun x => l.output (l.trace mask x))
      fun x g => (l.backward (l.trace mask x) g).1 := by
  have hmerge : Transposes (fun X : Tensor Dual [h, s, v] => X.mergeHeads) (fun x => x.mergeHeads)
      fun _ g => splitHeads g :=
    ⟨fun X => map_mergeHeads _ X, fun X g => by rw [slopes, map_mergeHeads, inner_mergeHeads]; rfl⟩
  have hcontext := (transposes_answers mask l).comp hmerge
  have hresult := hcontext.comp (l.weights.output.transposes_apply.mapRows s)
  simp only [output_trace, backward_trace]
  exact hresult

end

end MultiHeadAttention

end LayerStack
