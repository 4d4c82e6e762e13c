import LayerStack.Proofs.Tensor.Entry
import LayerStack.Operator.Attention

/-!
# LayerStack.Proofs.Tensor.Matrix

Matrices and heads entry by entry, and their transposes.

Under a sum of products of matching entries, a factor of a matrix product goes to the other side as its transpose
(`inner_product_left`, `inner_product_right`), and slices that were cut out go back side by side (`inner_splitHeads`,
`inner_mergeHeads`): cutting a row into slices and putting slices side by side are one correspondence of places, read
either way.
-/

namespace LayerStack.Tensor

variable {α β : Type} {n m k : Nat}

/-! ## Matrices -/

/-- Matrices with the same entries are the same. -/
theorem ext_matrix {x y : Tensor α [n, m]} (h : ∀ i j, (x.row i).entry j = (y.row i).entry j) : x = y :=
  ext_row fun i => ext_entry fun j => h i j

@[simp] theorem entry_transpose (x : Tensor α [n, m]) (j : Fin m) (i : Fin n) :
    (x.transpose.row j).entry i = (x.row i).entry j :=
  entry_row_ofMatrix _ j i

theorem transpose_transpose (x : Tensor α [n, m]) : x.transpose.transpose = x :=
  ext_matrix fun i j => by rw [entry_transpose, entry_transpose]

theorem map_transpose (f : α → β) (x : Tensor α [n, m]) : x.transpose.map f = transpose (x.map f) :=
  ext_matrix fun j i => by rw [row_map, entry_map, entry_transpose, entry_transpose, row_map, entry_map]

section Products

variable [CommRing α]

theorem entry_product (x : Tensor α [n, k]) (y : Tensor α [k, m]) (i : Fin n) (j : Fin m) :
    ((x.product y).row i).entry j = ∑ l, (x.row i).entry l * (y.row l).entry j := by
  rw [product, entry_row_ofMatrix, Scalar.sum_eq_sum]

theorem inner_eq_sum_matrix (x y : Tensor α [n, m]) : x.inner y = ∑ i, ∑ j, (x.row i).entry j * (y.row i).entry j := by
  rw [inner_eq_sum_row]
  exact Finset.sum_congr rfl fun i _ => inner_eq_sum_entry _ _

theorem inner_transpose (g : Tensor α [m, n]) (x : Tensor α [n, m]) : g.inner x.transpose = g.transpose.inner x := by
  rw [inner_eq_sum_matrix, inner_eq_sum_matrix, Finset.sum_comm]
  simp only [entry_transpose]

/-- The left factor of a product. -/
theorem inner_product_left (g : Tensor α [n, m]) (x : Tensor α [n, k]) (y : Tensor α [k, m]) :
    g.inner (x.product y) = (g.product y.transpose).inner x := by
  rw [inner_eq_sum_matrix, inner_eq_sum_matrix]
  simp only [entry_product, entry_transpose, Finset.mul_sum, Finset.sum_mul]
  refine Finset.sum_congr rfl fun i _ => Finset.sum_comm.trans ?_
  exact Finset.sum_congr rfl fun l _ => Finset.sum_congr rfl fun j _ => by ring

/-- The right factor of a product. -/
theorem inner_product_right (g : Tensor α [n, m]) (x : Tensor α [n, k]) (y : Tensor α [k, m]) :
    g.inner (x.product y) = (x.transpose.product g).inner y := by
  rw [inner_eq_sum_matrix, inner_eq_sum_matrix]
  simp only [entry_product, entry_transpose, Finset.mul_sum, Finset.sum_mul]
  calc ∑ i, ∑ j, ∑ l, (g.row i).entry j * ((x.row i).entry l * (y.row l).entry j)
      = ∑ i, ∑ l, ∑ j, (x.row i).entry l * (g.row i).entry j * (y.row l).entry j :=
        Finset.sum_congr rfl fun i _ => Finset.sum_comm.trans
          (Finset.sum_congr rfl fun l _ => Finset.sum_congr rfl fun j _ => by ring)
    _ = ∑ l, ∑ j, ∑ i, (x.row i).entry l * (g.row i).entry j * (y.row l).entry j :=
        Finset.sum_comm.trans (Finset.sum_congr rfl fun l _ => Finset.sum_comm)

theorem transpose_product (x : Tensor α [n, k]) (y : Tensor α [k, m]) :
    (x.product y).transpose = y.transpose.product x.transpose :=
  ext_matrix fun j i => by simp only [entry_transpose, entry_product, mul_comm]

end Products

/-! ## Heads -/

variable {s h d : Nat}

theorem placeSlice_slicePlace (a : Fin h) (j : Fin d) : placeSlice (slicePlace a j) = (a, j) := by
  have hd : 0 < d := j.pos
  refine Prod.ext (Fin.ext ?_) (Fin.ext ?_)
  · show (a * d + j) / d = a
    rw [Nat.mul_comm, Nat.mul_add_div hd, Nat.div_eq_of_lt j.isLt, Nat.add_zero]
  · show (a * d + j) % d = j
    rw [Nat.mul_comm, Nat.mul_add_mod, Nat.mod_eq_of_lt j.isLt]

theorem slicePlace_placeSlice (p : Fin (h * d)) : slicePlace (placeSlice p).1 (placeSlice p).2 = p := by
  refine Fin.ext ?_
  show p / d * d + p % d = p
  rw [Nat.mul_comm]
  exact Nat.div_add_mod p d

/-- The places of the whole width are those of the slices. -/
def slices : Fin h × Fin d ≃ Fin (h * d) where
  toFun q := slicePlace q.1 q.2
  invFun := placeSlice
  left_inv q := placeSlice_slicePlace q.1 q.2
  right_inv := slicePlace_placeSlice

@[simp] theorem entry_splitHeads (x : Tensor α [s, h * d]) (a : Fin h) (t : Fin s) (j : Fin d) :
    (((x.splitHeads).row a).row t).entry j = (x.row t).entry (slicePlace a j) := by
  rw [splitHeads, row_ofFn, entry_row_ofMatrix]

@[simp] theorem entry_mergeHeads (x : Tensor α [h, s, d]) (t : Fin s) (p : Fin (h * d)) :
    ((x.mergeHeads).row t).entry p = ((x.row (placeSlice p).1).row t).entry (placeSlice p).2 := by
  rw [mergeHeads, entry_row_ofMatrix]

theorem map_splitHeads (f : α → β) (x : Tensor α [s, h * d]) :
    (x.splitHeads).map f = splitHeads (h := h) (d := d) (x.map f) :=
  ext_row fun a => ext_matrix fun t j => by simp only [row_map, entry_map, entry_splitHeads]

theorem map_mergeHeads (f : α → β) (x : Tensor α [h, s, d]) : (x.mergeHeads).map f = mergeHeads (x.map f) :=
  ext_matrix fun t p => by simp only [row_map, entry_map, entry_mergeHeads]

variable [CommRing α]

/-- Slices cut out, under a gradient of the slices. -/
theorem inner_splitHeads (g : Tensor α [h, s, d]) (x : Tensor α [s, h * d]) :
    g.inner x.splitHeads = g.mergeHeads.inner x := by
  have hslices (t : Fin s) : ∑ p, ((g.mergeHeads).row t).entry p * (x.row t).entry p =
      ∑ a, ∑ j, ((g.row a).row t).entry j * (x.row t).entry (slicePlace a j) := by
    rw [← Equiv.sum_comp slices, Fintype.sum_prod_type]
    refine Finset.sum_congr rfl fun a _ => Finset.sum_congr rfl fun j _ => ?_
    have hplace : slices (a, j) = slicePlace a j := rfl
    rw [hplace, entry_mergeHeads, placeSlice_slicePlace]
  rw [inner_eq_sum_row, inner_eq_sum_matrix]
  simp only [hslices, inner_eq_sum_matrix, entry_splitHeads]
  exact Finset.sum_comm

/-- Slices put side by side, under a gradient of the whole width. -/
theorem inner_mergeHeads (g : Tensor α [s, h * d]) (x : Tensor α [h, s, d]) :
    g.inner x.mergeHeads = (splitHeads g : Tensor α [h, s, d]).inner x := by
  rw [inner_comm, ← inner_splitHeads, inner_comm]

end LayerStack.Tensor
