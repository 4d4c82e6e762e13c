import Mathlib.Algebra.BigOperators.Field
import LayerStack.Loss
import LayerStack.Proofs.Tensor.Sample
import LayerStack.Proofs.Tensor.Entry

/-!
# LayerStack.Proofs.Loss.Mean

Losses and accuracies as means over samples.

Losses are means over all entries, or over the rows along the last axis, and so is an accuracy.  Every sample of a batch has
as many of them, so with exact quotients each is the mean over the samples of what a sample comes to by itself
(`value?_eq_mean`, `accuracy?_eq_mean`).  For this a sample has to have an axis: predictions without one would be a single
row, all samples together.
-/

namespace LayerStack

open Tensor

variable {α : Type} [ExactField α] {u : Dims}

namespace Loss

theorem total_div_volume {k : Nat} (z : Tensor α (k :: u)) (v : α) :
    z.total / ((k : α) * v) = (∑ i, (z.row i).total / v) / (k : α) := by
  rw [total_eq_sum_row, ← Finset.sum_div, div_div, mul_comm]

/-- A mean over all entries is the mean over the samples of the means over their entries. -/
theorem mean_eq {k : Nat} (z : Tensor α (k :: u)) :
    mean ⟨k :: u, z⟩ = (∑ i, (z.row i).total / (Dims.volume u : α)) / (k : α) := by
  have hsize : ((AnyTensor.size ⟨k :: u, z⟩ : Nat) : α) = (k : α) * (Dims.volume u : α) := by
    rw [← Nat.cast_mul]
    rfl
  have htotal : AnyTensor.foldl (· + ·) ((0 : Nat) : α) ⟨k :: u, z⟩ = z.total := by
    rw [Nat.cast_zero]
    rfl
  rw [mean, hsize, htotal, total_div_volume]

/-- A loss is the mean over the samples of a batch of what each of them costs. -/
theorem value?_eq_mean (loss : Loss) (hu : u ≠ []) : ∃ cost : Tensor α u → Tensor α u → α,
    ∀ {k : Nat} (P Y : Tensor α (k :: u)),
      loss.value? ⟨k :: u, P⟩ ⟨k :: u, Y⟩ = some ((∑ i, cost (P.row i) (Y.row i)) / (k : α)) := by
  cases loss with
  | categoricalCrossentropy =>
      refine ⟨fun p y => -((zipWith (fun p t => t * Elementary.log (clip p)) p y).total / (Dims.volume u.dropLast : α)),
        fun {k} P Y => ?_⟩
      obtain ⟨a, u, rfl⟩ := List.exists_cons_of_ne_nil hu
      have hrows (z : Tensor α (k :: a :: u)) :
          ((rowCount ⟨k :: a :: u, z⟩ : Nat) : α) = (k : α) * (Dims.volume (a :: u).dropLast : α) := by
        rw [← Nat.cast_mul]
        rfl
      have htotal (z : Tensor α (k :: a :: u)) : AnyTensor.foldl (· + ·) (0 : α) ⟨k :: a :: u, z⟩ = z.total := rfl
      rw [value?, AnyTensor.zipWith?_mk, Option.map_some, hrows, htotal, neg_div, total_div_volume]
      simp only [row_zipWith, Finset.sum_neg_distrib, neg_div]
  | meanSquaredError =>
      refine ⟨fun p y => (zipWith (fun p t => Scalar.square (p - t)) p y).total / (Dims.volume u : α), fun P Y => ?_⟩
      rw [value?, AnyTensor.zipWith?_mk, Option.map_some, mean_eq]
      simp only [row_zipWith]
  | binaryCrossentropy =>
      refine ⟨fun p y => -((zipWith (fun p t => t * Elementary.log (clip p) + (1 - t) * Elementary.log (1 - clip p)) p
        y).total / (Dims.volume u : α)), fun P Y => ?_⟩
      rw [value?, AnyTensor.zipWith?_mk, Option.map_some, mean_eq]
      simp only [row_zipWith, Finset.sum_neg_distrib, neg_div]

end Loss

/-- An accuracy is the mean over the samples of a batch of the shares that each of them has right. -/
theorem accuracy?_eq_mean (hu : u ≠ []) : ∃ right : Tensor α u → Tensor α u → α,
    ∀ {k : Nat} (P Y : Tensor α (k :: u)),
      accuracy? ⟨k :: u, P⟩ ⟨k :: u, Y⟩ = some ((∑ i, right (P.row i) (Y.row i)) / (k : α)) := by
  obtain ⟨a, u, rfl⟩ := List.exists_cons_of_ne_nil hu
  have hlast {k : Nat} (P : Tensor α (k :: a :: u)) : AnyTensor.lastAxis ⟨k :: a :: u, P⟩ = (a :: u).getLastD 1 := rfl
  by_cases hone : (a :: u).getLastD 1 = 1
  · -- Single numbers, each on its side of one half.
    refine ⟨fun p y => (zipWith (fun p t : α => accuracy?.hit ((Scalar.half < p : Bool) == (Scalar.half < t : Bool))) p
      y).total / (Dims.volume (a :: u) : α), fun P Y => ?_⟩
    rw [accuracy?, hlast, if_pos hone, AnyTensor.zipWith?_mk, Option.map_some, Loss.mean_eq]
    simp only [row_zipWith]
  · -- Rows along the last axis, each with its first largest number.
    refine ⟨fun p y => (zipWith (fun p t => accuracy?.hit (p == t)) (p.foldLast argmax) (y.foldLast argmax)).total /
      (Dims.volume (a :: u).dropLast : α), fun {k} P Y => ?_⟩
    have hrow (i : Fin k) : row (s := (a :: u).dropLast) (zipWith (fun p t => (accuracy?.hit (p == t) : α))
        (P.foldLast argmax) (Y.foldLast argmax)) i =
        zipWith (fun p t => accuracy?.hit (p == t)) ((P.row i).foldLast argmax) ((Y.row i).foldLast argmax) :=
      (row_zipWith _ _ _ i).trans (congrArg₂ (zipWith _) (Vector.getElem_map _ i.isLt) (Vector.getElem_map _ i.isLt))
    have hhits : (AnyTensor.foldLast argmax ⟨k :: a :: u, P⟩).zipWith? (fun p t => (accuracy?.hit (p == t) : α))
        (AnyTensor.foldLast argmax ⟨k :: a :: u, Y⟩) =
        some ⟨k :: (a :: u).dropLast, zipWith (fun p t => accuracy?.hit (p == t)) (P.foldLast argmax)
          (Y.foldLast argmax)⟩ := AnyTensor.zipWith?_mk _ _ _
    rw [accuracy?, hlast, if_neg hone, hhits, Option.map_some, Loss.mean_eq]
    refine congrArg (fun total => some (total / (k : α))) (Finset.sum_congr rfl fun i _ => ?_)
    exact congrArg (fun z => total z / _) (hrow i)

end LayerStack
