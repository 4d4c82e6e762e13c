import Mathlib.Data.Matrix.Mul
import Mathlib.LinearAlgebra.Matrix.Hadamard
import LayerStack.Proofs.Operator.Transpose.Attention
import LayerStack.Proofs.Tensor.Place

/-!
# LayerStack.Proofs.Operator.Transpose.Attend

The way back through attention along any leading axes.

Queries, keys and values may have any axes in front of those of a matrix.  Products and transposes along such axes are
those of the matrices at every place, so the way back is that of one head at every place (`attendBackward?_append`).  How
answers move is written here in matrices: scores by the product rule, weights by the derivative of a softmax, answers by the
product rule again, under the mask (`answersAlong`).  The way back is the transpose of that (`attend_transposes`).
-/

namespace LayerStack

open Tensor

/-! ## Matrices along leading axes -/

namespace Tensor

variable {α β γ : Type} {a b c : Nat} {lead : Dims}

/-- The matrices at all places transposed. -/
def transposed (x : Tensor α (lead ++ [a, b])) : Tensor α (lead ++ [b, a]) := join lead ((blocks lead x).map transpose)

/-- The products of the matrices at all places. -/
def products [Zero α] [Add α] [Mul α] (x : Tensor α (lead ++ [a, b])) (y : Tensor α (lead ++ [b, c])) :
    Tensor α (lead ++ [a, c]) :=
  join lead (zipWith product (blocks lead x) (blocks lead y))

@[simp] theorem member_transposed (x : Tensor α (lead ++ [a, b])) (p : Place lead) :
    x.transposed.member p = (x.member p).transpose := by
  rw [transposed, member_join, pick_map, member]

@[simp] theorem member_products [Zero α] [Add α] [Mul α] (x : Tensor α (lead ++ [a, b])) (y : Tensor α (lead ++ [b, c]))
    (p : Place lead) : (x.products y).member p = (x.member p).product (y.member p) := by
  rw [products, member_join, pick_zipWith, member, member]

@[simp] theorem row_zipLast (f : {n : Nat} → Tensor α [n] → Tensor β [n] → Tensor γ [n]) (x : Tensor α [a, b])
    (y : Tensor β [a, b]) (i : Fin a) : (x.zipLast f y).row i = f (x.row i) (y.row i) :=
  Vector.getElem_zipWith i.isLt

/-- Rows combined along the last axis, place by place. -/
@[simp] theorem member_zipLast (f : {n : Nat} → Tensor α [n] → Tensor β [n] → Tensor γ [n]) : {lead : Dims} →
    (x : Tensor α (lead ++ [a, b])) → (y : Tensor β (lead ++ [a, b])) → (p : Place lead) →
    (x.zipLast f y).member p = (x.member p).zipLast f (y.member p)
  | [], _, _, _ => rfl
  | n :: lead, x, y, p => by
      have hrow : row (s := lead ++ [a, b]) (x.zipLast f y) p.1 =
          (row (s := lead ++ [a, b]) x p.1).zipLast f (row (s := lead ++ [a, b]) y p.1) := by
        cases lead <;> exact Vector.getElem_zipWith p.1.isLt
      exact (member_cons _ p).trans (by rw [hrow, member_zipLast f, ← member_cons, ← member_cons])

end Tensor

namespace AnyTensor

variable {α β γ : Type} {a b c : Nat} {s lead : Dims}

theorem matrixAxes?_append (x : Tensor α (lead ++ [a, b])) : matrixAxes? ⟨lead ++ [a, b], x⟩ = some (a, b) := by
  simp [matrixAxes?]

theorem transpose?_append (x : Tensor α (lead ++ [a, b])) :
    transpose? ⟨lead ++ [a, b], x⟩ = some ⟨lead ++ [b, a], x.transposed⟩ := by
  simp only [transpose?, matrixAxes?_append, blocks?_mk, Option.bind_eq_bind, Option.bind_some]
  rfl

theorem product?_append [Zero α] [Add α] [Mul α] (x : Tensor α (lead ++ [a, b])) (y : Tensor α (lead ++ [b, c])) :
    product? ⟨lead ++ [a, b], x⟩ ⟨lead ++ [b, c], y⟩ = some ⟨lead ++ [a, c], x.products y⟩ := by
  have hmatrix : matrixProduct? ⟨lead ++ [a, b], x⟩ ⟨lead ++ [b, c], y⟩ = some ⟨lead ++ [a, c], x.products y⟩ := by
    simp only [matrixProduct?, matrixAxes?_append, blocks?_mk, zipWith?_mk, Option.bind_eq_bind, Option.bind_some]
    rfl
  simp [product?, rank, hmatrix]

theorem zipLast?_mk (f : {n : Nat} → Tensor α [n] → Tensor β [n] → Tensor γ [n]) (x : Tensor α s) (y : Tensor β s) :
    zipLast? f ⟨s, x⟩ ⟨s, y⟩ = some ⟨s, x.zipLast f y⟩ := by
  simp [zipLast?, spread?, Dims.common?_self, Tensor.stretch?_self]

end AnyTensor

namespace Attention

/-! ## The way back along leading axes -/

section Passes

variable {α : Type} [Scalar α] {q k d v : Nat} {s lead : Dims}

omit [Scalar α] in
theorem masked?_mk [Mul α] (x : Tensor α s) (mask : Option (Tensor α s)) :
    masked? ⟨s, x⟩ (mask.map (AnyTensor.mk s)) = some ⟨s, Dropout.masked x mask⟩ := by
  cases mask with
  | none => rfl
  | some m => exact AnyTensor.zipWith?_mk _ x m

omit [Scalar α] in
theorem member_masked [Mul α] (x : Tensor α (lead ++ s)) (mask : Option (Tensor α (lead ++ s))) (p : Place lead) :
    (Dropout.masked x mask).member p = Dropout.masked (x.member p) (mask.map (·.member p)) := by
  cases mask with
  | none => rfl
  | some m => exact member_zipWith _ x m p

/-- The way back along leading axes is that of one head at every place. -/
theorem attendBackward?_append (query : Tensor α (lead ++ [q, d])) (key : Tensor α (lead ++ [k, d]))
    (value : Tensor α (lead ++ [k, v])) (weights : Tensor α (lead ++ [q, k])) (mask : Option (Tensor α (lead ++ [q, k])))
    (g : Tensor α (lead ++ [q, v])) :
    ∃ (queries : Tensor α (lead ++ [q, d])) (keys : Tensor α (lead ++ [k, d])) (values : Tensor α (lead ++ [k, v])),
      attendBackward? ⟨_, query⟩ ⟨_, key⟩ ⟨_, value⟩ ⟨_, weights⟩ (mask.map (AnyTensor.mk _)) ⟨_, g⟩ =
        some (⟨_, queries⟩, ⟨_, keys⟩, ⟨_, values⟩) ∧
      ∀ p, backward (root d) (query.member p) (key.member p) (value.member p) (weights.member p) (mask.map (·.member p))
        (g.member p) = ⟨queries.member p, keys.member p, values.member p⟩ := by
  have hlast : AnyTensor.lastAxis ⟨lead ++ [q, d], query⟩ = d := by simp [AnyTensor.lastAxis]
  let inner := Dropout.masked (g.products value.transposed) mask
  let scores : Tensor α (lead ++ [q, k]) := (inner.zipLast softmaxBackward weights).map (· / root d)
  have hscores (p : Place lead) : scores.member p =
      backwardScores (root d) (weights.member p) (mask.map (·.member p)) (value.member p) (g.member p) :=
    ext_row fun i => by
      simp only [scores, inner, member_map, member_zipLast, member_masked, member_products, member_transposed, row_map,
        row_zipLast, backwardScores, row_ofFn]
  refine ⟨scores.products key, scores.transposed.products query, (Dropout.masked weights mask).transposed.products g, ?run,
    fun p => ?places⟩
  case run =>
    simp only [attendBackward?, masked?_mk, AnyTensor.transpose?_append, AnyTensor.product?_append, AnyTensor.zipLast?_mk,
      AnyTensor.map, Option.bind_eq_bind, Option.bind_some, hlast]
    rfl
  case places =>
    simp only [member_products, member_transposed, hscores, member_masked]
    rfl

end Passes

/-! ## How answers move -/

section Moving

open scoped Matrix

variable {α : Type} {q k d v : Nat}

/-- A matrix by its entries. -/
def matrix {n m : Nat} (x : Tensor α [n, m]) : Matrix (Fin n) (Fin m) α := .of fun i j => (x.row i).entry j

/-- A matrix under a mask, if there is one. -/
def kept [Mul α] (S : Matrix (Fin q) (Fin k) α) (M : Option (Matrix (Fin q) (Fin k) α)) : Matrix (Fin q) (Fin k) α :=
  M.elim S (S ⊙ ·)

variable [Field α]

/-- How scores move with queries and keys. -/
def scoresAlong (r : α) (Q Q' : Matrix (Fin q) (Fin d) α) (K K' : Matrix (Fin k) (Fin d) α) : Matrix (Fin q) (Fin k) α :=
  r⁻¹ • (Q' * Kᵀ + Q * K'ᵀ)

/-- How the softmax of scores moves with them: each weight by what its score moves more than the mean under the weights. -/
def weightsAlong (S U : Matrix (Fin q) (Fin k) α) : Matrix (Fin q) (Fin k) α :=
  .of fun i j => S i j * (U i j - ∑ l, S i l * U i l)

/-- How answers move with scores and values. -/
def answersAlong (S U : Matrix (Fin q) (Fin k) α) (M : Option (Matrix (Fin q) (Fin k) α)) (V V' : Matrix (Fin k) (Fin v) α) :
    Matrix (Fin q) (Fin v) α :=
  kept (weightsAlong S U) M * V + kept S M * V'

omit [Field α] in
theorem matrix_masked [Mul α] (x : Tensor α [q, k]) (mask : Option (Tensor α [q, k])) :
    matrix (Dropout.masked x mask) = kept (matrix x) (mask.map matrix) := by
  cases mask with
  | none => rfl
  | some m =>
      ext i j
      simp [matrix, kept, Dropout.masked]

omit [Field α] in
theorem matrix_add [Add α] (x y : Tensor α [q, k]) : matrix (x.add y) = matrix x + matrix y := by
  ext i j
  simp [matrix]

omit [Field α] in
theorem matrix_transpose (x : Tensor α [q, k]) : matrix x.transpose = (matrix x)ᵀ := by
  ext i j
  simp [matrix]

theorem matrix_product (x : Tensor α [q, k]) (y : Tensor α [k, v]) : matrix (x.product y) = matrix x * matrix y := by
  ext i j
  simp [matrix, entry_product, Matrix.mul_apply]

theorem matrix_movedScores (r : α) (x x' : Tensor α [q, d]) (y y' : Tensor α [k, d]) :
    matrix (movedScores r x x' y y') = scoresAlong r (matrix x) (matrix x') (matrix y) (matrix y') := by
  have hdivided (z : Tensor α [q, k]) : matrix (z.map (· / r)) = r⁻¹ • matrix z := by
    ext i j
    simp [matrix, div_eq_inv_mul]
  rw [movedScores, hdivided, matrix_add, matrix_product, matrix_product, matrix_transpose, matrix_transpose, scoresAlong]

theorem matrix_movedWeights (w u : Tensor α [q, k]) : matrix (movedWeights w u) = weightsAlong (matrix w) (matrix u) := by
  ext i j
  simp [matrix, movedWeights, weightsAlong, entry_softmaxBackward, mul_comm]

theorem matrix_movedAnswer (w u : Tensor α [q, k]) (mask : Option (Tensor α [q, k])) (z z' : Tensor α [k, v]) :
    matrix (movedAnswer w (movedWeights w u) mask z z') =
      answersAlong (matrix w) (matrix u) (mask.map matrix) (matrix z) (matrix z') := by
  rw [movedAnswer, matrix_add, answer, answer, matrix_product, matrix_product, matrix_masked, matrix_masked,
    matrix_movedWeights, answersAlong]

end Moving

/-- The way back through attention is the transpose of how answers move with queries, keys and values, along any leading
axes, under any mask or none.  It is so for any weights and any root, so for those of a softmax too. -/
theorem attend_transposes {α : Type} [ExactField α] {q k d v : Nat} {lead : Dims} (query : Tensor α (lead ++ [q, d]))
    (key : Tensor α (lead ++ [k, d])) (value : Tensor α (lead ++ [k, v])) (weights : Tensor α (lead ++ [q, k]))
    (mask : Option (Tensor α (lead ++ [q, k]))) (g : Tensor α (lead ++ [q, v])) :
    ∃ (queries : Tensor α (lead ++ [q, d])) (keys : Tensor α (lead ++ [k, d])) (values : Tensor α (lead ++ [k, v])),
      attendBackward? ⟨_, query⟩ ⟨_, key⟩ ⟨_, value⟩ ⟨_, weights⟩ (mask.map (AnyTensor.mk _)) ⟨_, g⟩ =
        some (⟨_, queries⟩, ⟨_, keys⟩, ⟨_, values⟩) ∧
      ∀ (query' : Tensor α (lead ++ [q, d])) (key' : Tensor α (lead ++ [k, d])) (value' : Tensor α (lead ++ [k, v])),
        ∑ p : Place lead, ∑ i, ∑ j, matrix (g.member p) i j *
          answersAlong (matrix (weights.member p))
            (scoresAlong (root d) (matrix (query.member p)) (matrix (query'.member p)) (matrix (key.member p))
              (matrix (key'.member p)))
            (mask.map fun m => matrix (m.member p)) (matrix (value.member p)) (matrix (value'.member p)) i j =
        queries.inner query' + keys.inner key' + values.inner value' := by
  obtain ⟨queries, keys, values, hrun, hplaces⟩ := attendBackward?_append query key value weights mask g
  refine ⟨queries, keys, values, hrun, fun query' key' value' => ?_⟩
  rw [inner_eq_sum_member queries, inner_eq_sum_member keys, inner_eq_sum_member values, ← Finset.sum_add_distrib,
    ← Finset.sum_add_distrib]
  refine Finset.sum_congr rfl fun p _ => ?_
  have hmask : mask.map (fun m => matrix (m.member p)) = (mask.map (·.member p)).map matrix := by
    rw [Option.map_map]
    rfl
  have hinner := inner_movedAnswer (root d) (query.member p) (query'.member p) (key.member p) (key'.member p) (value.member p)
    (value'.member p) (weights.member p) (mask.map (·.member p)) (g.member p)
  rw [hplaces p, inner_eq_sum_matrix] at hinner
  rw [hmask, ← matrix_movedScores, ← matrix_movedAnswer]
  exact hinner

end Attention

end LayerStack
