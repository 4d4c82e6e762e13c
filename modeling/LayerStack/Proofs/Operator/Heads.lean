import LayerStack.Proofs.Tensor.Matrix
import LayerStack.Proofs.Tensor.Reshape

/-!
# LayerStack.Proofs.Operator.Heads

The heads of a batch of sequences.

Every sequence of a batch is cut into heads, and its heads are put side by side again.  Entry by entry that is a
correspondence of places (`heads_correspond`).  It is also what comes of the whole batch at once, if the width is read as
heads of their own width, in row-major order, and the axes of heads and positions change places
(`mapRows_splitHeads_eq`, `mapRows_mergeHeads_eq`).
-/

namespace LayerStack.Tensor

variable {α β : Type} {b s h d n m : Nat} {t : Dims}

/-- The rows of a tensor's rows, with both axes in each other's place. -/
def swapRows (x : Tensor α (n :: m :: t)) : Tensor α (m :: n :: t) := ofFn fun j => ofFn fun i => (x.row i).row j

@[simp] theorem row_row_swapRows (x : Tensor α (n :: m :: t)) (j : Fin m) (i : Fin n) :
    (x.swapRows.row j).row i = (x.row i).row j := by
  rw [swapRows, row_ofFn, row_ofFn]

theorem swapRows_swapRows (x : Tensor α (n :: m :: t)) : x.swapRows.swapRows = x :=
  ext_row fun i => ext_row fun j => by rw [row_row_swapRows, row_row_swapRows]

/-! ## One sequence -/

theorem mergeHeads_splitHeads (x : Tensor α [s, h * d]) : mergeHeads (x.splitHeads : Tensor α [h, s, d]) = x :=
  ext_matrix fun t p => by rw [entry_mergeHeads, entry_splitHeads, slicePlace_placeSlice]

theorem splitHeads_mergeHeads (y : Tensor α [h, s, d]) : y.mergeHeads.splitHeads = y :=
  ext_row fun a => ext_matrix fun t j => by rw [entry_splitHeads, entry_mergeHeads, placeSlice_slicePlace]

/-! ## A batch -/

/-- Cutting every sequence of a batch into heads is reading the width as heads of their own width, with the axes of heads
and positions in each other's place. -/
theorem mapRows_splitHeads_eq [Zero α] (x : Tensor α [b, s, h * d]) :
    x.mapRows (splitHeads (h := h) (d := d)) = (x.reshape [b, s, h, d]).mapRows swapRows := by
  refine ext_row fun i => ext_row fun a => ext_matrix fun t j => ?_
  rw [row_mapRows, row_mapRows, row_row_swapRows, entry_splitHeads]
  have hposition : Place.position (s := [b, s, h, d]) (i, t, a, j, ()) =
      Place.position (s := [b, s, h * d]) (i, t, slicePlace a j, ()) := by
    simp only [Place.position, Dims.volume, List.foldr, slicePlace]
    ring
  exact (pick_reshape x hposition).symm

theorem mapRows_splitHeads_mergeHeads (y : Tensor α [b, h, s, d]) : (y.mapRows mergeHeads).mapRows splitHeads = y :=
  ext_row fun i => by rw [row_mapRows, row_mapRows, splitHeads_mergeHeads]

/-- Putting heads side by side is the way back. -/
theorem mapRows_mergeHeads_eq [Zero α] (y : Tensor α [b, h, s, d]) :
    y.mapRows mergeHeads = (y.mapRows swapRows : Tensor α [b, s, h, d]).reshape [b, s, h * d] := by
  have hvolume : Dims.volume [b, s, h, d] = Dims.volume [b, s, h * d] := by
    simp only [Dims.volume, List.foldr]
    ring
  have hswap (z : Tensor α [b, s, h, d]) : (z.mapRows swapRows).mapRows swapRows = z :=
    ext_row fun i => by rw [row_mapRows, row_mapRows, swapRows_swapRows]
  calc y.mapRows mergeHeads
      = ((y.mapRows mergeHeads).reshape [b, s, h, d]).reshape [b, s, h * d] := (reshape_reshape hvolume _).symm
    _ = ((((y.mapRows mergeHeads).reshape [b, s, h, d]).mapRows swapRows).mapRows swapRows).reshape [b, s, h * d] := by
        rw [hswap]
    _ = (y.mapRows swapRows : Tensor α [b, s, h, d]).reshape [b, s, h * d] := by
        rw [← mapRows_splitHeads_eq, mapRows_splitHeads_mergeHeads]

/-- Cutting the sequences of a batch into heads and putting heads side by side undo one another, place by place: place `j`
of head `a` is place `a * d + j` of the whole width.  Under a sum of products of matching entries each is the other's
adjoint.  Both are what a reshaped batch comes to whose axes of heads and positions change places. -/
theorem heads_correspond [Zero α] [CommRing β] (b s h d : Nat) :
    (∀ x : Tensor α [b, s, h * d], (x.mapRows (splitHeads (h := h) (d := d))).mapRows mergeHeads = x) ∧
      (∀ y : Tensor α [b, h, s, d], (y.mapRows mergeHeads).mapRows splitHeads = y) ∧
      (∀ (x : Tensor α [b, s, h * d]) (i : Fin b) (a : Fin h) (t : Fin s) (j : Fin d) (p : Fin (h * d)),
        p.val = a * d + j →
          pick (x.mapRows (splitHeads (h := h) (d := d))) (i, a, t, j, ()) = x.pick (i, t, p, ())) ∧
      (∀ (x : Tensor β [b, s, h * d]) (z : Tensor β [b, h, s, d]),
        (x.mapRows (splitHeads (h := h) (d := d))).inner z = x.inner (z.mapRows mergeHeads)) ∧
      (∀ x : Tensor α [b, s, h * d],
        x.mapRows (splitHeads (h := h) (d := d)) = (x.reshape [b, s, h, d]).mapRows swapRows) ∧
      ∀ y : Tensor α [b, h, s, d],
        y.mapRows mergeHeads = (y.mapRows swapRows : Tensor α [b, s, h, d]).reshape [b, s, h * d] := by
  refine ⟨fun x => ext_row fun i => ?_, mapRows_splitHeads_mergeHeads, fun x i a t j p hp => ?_, fun x z => ?_,
    mapRows_splitHeads_eq, mapRows_mergeHeads_eq⟩
  · rw [row_mapRows, row_mapRows, mergeHeads_splitHeads]
  · obtain rfl : p = slicePlace a j := Fin.ext hp
    have hentry := entry_splitHeads (h := h) (d := d) (x.row i) a t j
    rw [← row_mapRows (splitHeads (h := h) (d := d)) x i] at hentry
    exact hentry
  · rw [inner_eq_sum_row, inner_eq_sum_row]
    refine Finset.sum_congr rfl fun i _ => ?_
    rw [row_mapRows, row_mapRows, inner_comm, inner_splitHeads, inner_comm]

end LayerStack.Tensor
