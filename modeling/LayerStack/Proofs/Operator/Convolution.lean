import LayerStack.Proofs.Scalar.Real
import LayerStack.Proofs.Tensor.Entry
import LayerStack.Proofs.Operator.Sample
import LayerStack.Proofs.Operator.Window

/-!
# LayerStack.Proofs.Operator.Convolution

A convolution is direct cross-correlation.

A layer reads its images window by window, tap by tap, each tap of a window on some cell or on padding.  In the
coordinates of the image that is the definition of cross-correlation: tap `(i, j)` of window `(y, x)` reads the cell in
row `y * stride + i - top` and column `x * stride + j - left`, and reads zeros where there is no such cell
(`entry_tapped`).  With that and with as many windows as the shape rule counts, what a batch comes to before the activation
is written down in `forward_cross_correlates`.
-/

namespace LayerStack

variable {α : Type}

/-! ## Pixels -/

namespace WindowGrid

variable {β γ : Type} {h w c k m : Nat}

@[simp] theorem pixel_ofPixels (f : Fin h → Fin w → Tensor α [c]) (r : Fin h) (q : Fin w) :
    pixel (ofPixels f) r q = f r q := by
  simp only [pixel, ofPixels, Tensor.row_ofFn]

/-- What an image reads at a place that may lie outside of it: zeros there. -/
def readAt [Zero α] (image : Tensor α [h, w, c]) (r q : Int) (k : Fin c) : α :=
  if inside : (0 ≤ r ∧ r < h) ∧ (0 ≤ q ∧ q < w) then
    (pixel image ⟨r.toNat, by omega⟩ ⟨q.toNat, by omega⟩).entry k
  else 0

theorem readAt_of_cell [Zero α] (image : Tensor α [h, w, c]) (r : Fin h) (q : Fin w) (k : Fin c) :
    readAt image r q k = (pixel image r q).entry k := by
  have hr := r.isLt
  have hq := q.isLt
  rw [readAt, dif_pos (by omega)]
  rfl

theorem readAt_of_outside [Zero α] (image : Tensor α [h, w, c]) {r q : Int} (k : Fin c)
    (houtside : ∀ (r' : Fin h) (q' : Fin w), ¬ (r = r' ∧ q = q')) : readAt image r q k = 0 := by
  refine dif_neg fun inside => houtside ⟨r.toNat, by omega⟩ ⟨q.toNat, by omega⟩ ?_
  constructor <;> simp <;> omega

end WindowGrid

/-! ## Padding -/

namespace WindowAxis

/-- The padding before the first cell: half of all the padding there is, rounded down. -/
def lead (a : WindowAxis) (padding : Padding) (size : Nat) : Int :=
  match padding with
  | .valid => 0
  | .same => max ((windowCount size a.kernel a.stride .same - 1) * a.stride + a.kernel - size) 0 / 2

theorem before_eq_lead {a : WindowAxis} (ha : a.backwards = false) (padding : Padding) (size : Nat) :
    (a.before padding size : Int) = a.lead padding size := by
  cases padding with
  | valid => rfl
  | same =>
      simp only [before, margins, lead, samePadding, step_eq ha, Int.fdiv_eq_ediv_of_nonneg _ (show (0 : Int) ≤ 2 by decide)]
      omega

end WindowAxis

namespace WindowGrid

open Tensor

variable {h w c : Nat} {g : WindowGrid}

theorem entry_tapped_eq_elim [Zero α] (g : WindowGrid) (image : Tensor α [h, w, c]) (y x i j : Nat) (k : Fin c) :
    (g.tapped image y x i j).entry k =
      (g.cell? y x i j : Option (Fin h × Fin w)).elim 0 fun p => (pixel image p.1 p.2).entry k := by
  unfold tapped
  cases (g.cell? y x i j : Option (Fin h × Fin w)) with
  | none => exact entry_zeros k
  | some p => rfl

/-- What a tap reads, in the coordinates of the image. -/
theorem entry_tapped [Zero α] (hg : g.Proper) (image : Tensor α [h, w, c]) (y x i j : Nat) (k : Fin c) :
    (g.tapped image y x i j).entry k =
      readAt image (y * g.rows.stride + i - g.rows.lead g.padding h)
        (x * g.columns.stride + j - g.columns.lead g.padding w) k := by
  have hrow := WindowAxis.before_eq_lead hg.rows.forwards g.padding h
  have hcolumn := WindowAxis.before_eq_lead hg.columns.forwards g.padding w
  rw [entry_tapped_eq_elim, ← hrow, ← hcolumn]
  cases hcell : (g.cell? y x i j : Option (Fin h × Fin w)) with
  | some p =>
      obtain ⟨hr, hq⟩ := (cell?_eq_some hg).mp hcell
      have hr' : (y * g.rows.stride + i - (g.rows.before g.padding h : Nat) : Int) = p.1 := by
        unfold WindowAxis.OnCell at hr
        omega
      have hq' : (x * g.columns.stride + j - (g.columns.before g.padding w : Nat) : Int) = p.2 := by
        unfold WindowAxis.OnCell at hq
        omega
      rw [hr', hq', readAt_of_cell]
      rfl
  | none =>
      refine (readAt_of_outside image k fun r q hplace => ?_).symm
      have hsome : g.cell? y x i j = some (r, q) := by
        rw [cell?_eq_some hg]
        unfold OnCell WindowAxis.OnCell
        omega
      rw [hsome] at hcell
      contradiction

end WindowGrid

open WindowGrid

/-! ## One image -/

namespace Kernel

variable {z : ConvSizes} {h w : Nat}

/-- What a kernel adds to a filter. -/
def biasAt [Zero α] (k : Kernel α z) (f : Fin z.filters) : α := k.bias.elim 0 (·.entry f)

variable [CommRing α]

/-- What an image comes to under a filter at a window. -/
theorem entry_convolve (k : Kernel α z) (image : Tensor α (z.imageDims h w)) (y : Fin (z.grid.outHeight h))
    (x : Fin (z.grid.outWidth w)) (f : Fin z.filters) :
    (pixel (k.convolve image) y x).entry f =
      k.biasAt f + ∑ i : Fin z.grid.rows.kernel, ∑ j : Fin z.grid.columns.kernel, ∑ c : Fin z.channels,
        (z.grid.tapped image y x i j).entry c * ((k.tap i j).row c).entry f := by
  have hpixel := pixel_ofPixels (h := z.grid.outHeight h) (w := z.grid.outWidth w) (c := z.filters) (α := α)
  rw [convolve, hpixel, biasAt]
  cases k.bias with
  | none => simp only [Tensor.entry_ofEntries, Scalar.sum_eq_sum, Option.elim_none, zero_add]
  | some b =>
      simp only [Tensor.entry_add, Tensor.entry_ofEntries, Scalar.sum_eq_sum, Option.elim_some]
      exact add_comm _ _

end Kernel

namespace Conv2D

variable {z : ConvSizes} {b h w : Nat}

/-- A batch of images through the layer. -/
theorem forwardBatch_mk [Scalar α] (l : Conv2D α z) (hfits : z.grid.fits h w = true)
    (images : Tensor α (b :: z.imageDims h w)) :
    l.forwardBatch ⟨b :: z.imageDims h w, images⟩ =
      .ok (⟨b :: z.mapDims h w, images.mapRows fun image => l.output (l.trace image)⟩,
        ⟨h, w, ⟨[b], images.mapRows l.trace⟩⟩) := by
  have hlast : AnyTensor.lastAxis ⟨b :: z.imageDims h w, images⟩ = z.channels := rfl
  have hblocks : AnyTensor.blocks? ⟨b :: z.imageDims h w, images⟩ (z.imageDims h w) = some ⟨[b], images⟩ :=
    AnyTensor.blocks?_one images
  have houtput : (AnyTensor.map (fun t => l.output t) ⟨[b], images.mapRows l.trace⟩).join =
      ⟨b :: z.mapDims h w, images.mapRows fun image => l.output (l.trace image)⟩ :=
    (AnyTensor.join_map_one _ _).trans (congrArg (AnyTensor.mk _) Vector.map_map)
  unfold forwardBatch
  rw [if_pos hlast]
  simp only [ConvSizes.imageDims] at hblocks ⊢
  simp only [hblocks, hfits, if_true]
  exact congrArg (fun y => Except.ok (y, (⟨h, w, ⟨[b], images.mapRows l.trace⟩⟩ : BatchTrace α z))) houtput

/-- What a forward pass left of a batch before the activation. -/
def BatchTrace.convolved (t : BatchTrace α z) : AnyTensor α := (t.images.map (·.convolved)).join

theorem convolved_mk [Scalar α] (l : Conv2D α z) (images : Tensor α (b :: z.imageDims h w)) :
    BatchTrace.convolved ⟨h, w, ⟨[b], images.mapRows l.trace⟩⟩ =
      ⟨b :: z.mapDims h w, images.mapRows l.kernel.convolve⟩ :=
  (AnyTensor.join_map_one _ _).trans (congrArg (AnyTensor.mk _) Vector.map_map)

/-- A layer whose windows advance takes every batch of images over which its rule counts a window along either axis, and
makes of it, before the activation, as many rows and columns as the rule counts.  In exact arithmetic the number for a
filter at a window is the filter's bias and the sum, over the taps of the window and the channels, of weight times what
the image has there: in row `y * stride + i - top` and column `x * stride + j - left`, zero where that is outside. -/
theorem forward_cross_correlates [ExactScalar α] (l : Conv2D α z) (hz : z.grid.Proper) (haccepts : z.grid.Accepts h w)
    (images : Tensor α (b :: z.imageDims h w)) :
    ∃ (y : AnyTensor α) (t : BatchTrace α z) (rows columns : Nat) (convolved : Tensor α [b, rows, columns, z.filters]),
      l.forwardBatch ⟨b :: z.imageDims h w, images⟩ = .ok (y, t) ∧
      t.convolved = ⟨[b, rows, columns, z.filters], convolved⟩ ∧
      (rows : Int) = windowCount h z.grid.rows.kernel z.grid.rows.stride z.grid.padding ∧
      (columns : Int) = windowCount w z.grid.columns.kernel z.grid.columns.stride z.grid.padding ∧
      ∀ (n : Fin b) (y : Fin rows) (x : Fin columns) (f : Fin z.filters),
        (pixel (convolved.row n) y x).entry f =
          l.kernel.biasAt f + ∑ i : Fin z.grid.rows.kernel, ∑ j : Fin z.grid.columns.kernel, ∑ c : Fin z.channels,
            readAt (images.row n) (y * z.grid.rows.stride + i - z.grid.rows.lead z.grid.padding h)
              (x * z.grid.columns.stride + j - z.grid.columns.lead z.grid.padding w) c *
              ((l.kernel.tap i j).row c).entry f := by
  obtain ⟨hrows, hcolumns⟩ := haccepts
  refine ⟨_, _, z.grid.outHeight h, z.grid.outWidth w, images.mapRows l.kernel.convolve,
    l.forwardBatch_mk (fits_of_accepts hz h w ⟨hrows, hcolumns⟩) images, l.convolved_mk images, ?_, ?_, ?_⟩
  · rw [outHeight_eq hz]
    omega
  · rw [outWidth_eq hz]
    omega
  · intro n y x f
    have hrow : (images.mapRows l.kernel.convolve).row n = l.kernel.convolve (images.row n) :=
      Tensor.row_mapRows l.kernel.convolve images n
    have htap (i j : Nat) (c : Fin z.channels) := entry_tapped hz (images.row n) y x i j c
    refine (congrArg (fun image => (pixel image y x).entry f) hrow).trans ((l.kernel.entry_convolve _ y x f).trans ?_)
    simp only [htap]

/-- Kernels of two rows and four columns that advance by two rows and one column, over one image of three rows and three
columns: wider than the image, and with more padding after it than before it along either axis. -/
theorem forward_cross_correlates_wide :
    let z : ConvSizes := ⟨⟨⟨2, 2, false⟩, ⟨4, 1, false⟩, .same⟩, 1, 1⟩
    let l : Conv2D ℝ z := ⟨.relu, ⟨Tensor.fill 2 _, some (Tensor.fill 1 _)⟩⟩
    let images : Tensor ℝ [1, 3, 3, 1] := Tensor.fill 3 _
    z.grid.Proper ∧ z.grid.Accepts 3 3 ∧
      ∃ (y : AnyTensor ℝ) (t : BatchTrace ℝ z) (convolved : Tensor ℝ [1, 2, 3, 1]),
        l.forwardBatch ⟨[1, 3, 3, 1], images⟩ = .ok (y, t) ∧ t.convolved = ⟨[1, 2, 3, 1], convolved⟩ ∧
        (pixel (convolved.row 0) 1 0).entry 0 = 19 ∧ (pixel (convolved.row 0) 1 2).entry 0 = 13 := by
  intro z l images
  have hproper : z.grid.Proper := ⟨⟨by decide, by decide, rfl⟩, ⟨by decide, by decide, rfl⟩⟩
  have haccepts : z.grid.Accepts 3 3 := ⟨by decide, by decide⟩
  obtain ⟨y, t, rows, columns, convolved, hforward, hconvolved, hrows, hcolumns, hentry⟩ :=
    forward_cross_correlates l hproper haccepts images
  obtain rfl : rows = 2 := by
    have hcount : windowCount 3 2 2 .same = 2 := by decide
    exact_mod_cast hrows.trans hcount
  obtain rfl : columns = 3 := by
    have hcount : windowCount 3 4 1 .same = 3 := by decide
    exact_mod_cast hcolumns.trans hcount
  refine ⟨hproper, haccepts, y, t, convolved, hforward, hconvolved, (hentry 0 1 0 0).trans ?_,
    (hentry 0 1 2 0).trans ?_⟩
  all_goals
    simp [z, l, images, Fin.sum_univ_succ, WindowAxis.lead, readAt, windowCount, Kernel.biasAt, Kernel.tap, pixel,
      ConvSizes.kernelDims, ConvSizes.imageDims]
    norm_num

end Conv2D

end LayerStack
