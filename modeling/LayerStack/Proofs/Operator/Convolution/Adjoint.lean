import LayerStack.Proofs.Operator.Convolution
import LayerStack.Proofs.Tensor.Batch

/-!
# LayerStack.Proofs.Operator.Convolution.Adjoint

The way back through a convolution is its transpose.

What a convolution adds to a bias is linear in the image and linear in the weights: a sum over windows, filters, taps and
channels.  The same sum read from the cells of the image is the gradient of the image (`inner_convolve_image`), read from
the weights it is the gradient of the weights (`inner_convolve_weight`).  Reading it from the cells is where the windows
matter: for each tap, the cells a window reads and the windows a cell returns to are the same pairs.
-/

namespace LayerStack

open Tensor WindowGrid

/-! ## Activations -/

namespace Activation

variable {α : Type} [Scalar α] {n : Nat} {s : Dims}

/-- The gradient before an activation of a tensor, from a gradient after it of the same axes. -/
def backwardOn (a : Activation) (cotangent x : Tensor α s) : Tensor α s :=
  match a with
  | .linear => cotangent
  | .softmax => zipLast softmaxBackward cotangent (x.mapLast Tensor.softmax)
  | a => zipWith a.backward cotangent x

theorem backwardOnTensor?_mk (a : Activation) (cotangent x : Tensor α s) :
    a.backwardOnTensor? ⟨s, cotangent⟩ ⟨s, x⟩ = some ⟨s, a.backwardOn cotangent x⟩ := by
  cases a with
  | linear => rfl
  | softmax => simp [backwardOnTensor?, AnyTensor.zipLast?, AnyTensor.spread?, AnyTensor.mapLast, Dims.common?_self,
      stretch?_self, backwardOn]
  | _ => exact AnyTensor.zipWith?_mk _ cotangent x

theorem row_backwardOn {m : Nat} (a : Activation) (cotangent x : Tensor α (m :: n :: s)) (i : Fin m) :
    row (a.backwardOn cotangent x) i = a.backwardOn (row cotangent i) (row x i) := by
  cases a with
  | linear => rfl
  | softmax =>
      have hmap : row (mapLast Tensor.softmax x) i = mapLast Tensor.softmax (row x i) := Vector.getElem_map _ i.isLt
      have hzip : row (zipLast softmaxBackward cotangent (mapLast Tensor.softmax x)) i =
          zipLast softmaxBackward (row cotangent i) (row (mapLast Tensor.softmax x) i) := Vector.getElem_zipWith i.isLt
      rw [backwardOn, hzip, hmap, backwardOn]
  | _ => exact row_zipWith _ cotangent x i

/-- On a row of numbers it is the one of a row. -/
theorem backwardOn_row (a : Activation) (cotangent x : Tensor α [n]) :
    a.backwardOn cotangent x = a.backwardOnRow cotangent x := by
  cases a with
  | linear => exact ext_entry fun i => (entry_zipWith (fun g _ => g) cotangent x i).symm
  | _ => rfl

end Activation

variable {α : Type}

/-! ## Pixels -/

namespace WindowGrid

variable {h w c : Nat} {g : WindowGrid}

theorem ext_pixel {a b : Tensor α [h, w, c]} (hpixel : ∀ r q k, (pixel a r q).entry k = (pixel b r q).entry k) : a = b :=
  ext_row fun r => ext_row fun q => ext_entry fun k => hpixel r q k

theorem entry_pixel_add [Add α] (a b : Tensor α [h, w, c]) (r : Fin h) (q : Fin w) (k : Fin c) :
    (pixel (a.add b) r q).entry k = (pixel a r q).entry k + (pixel b r q).entry k := by
  simp only [pixel, row_add, entry_add]

theorem entry_pixel_sub [Sub α] (a b : Tensor α [h, w, c]) (r : Fin h) (q : Fin w) (k : Fin c) :
    (pixel (a.sub b) r q).entry k = (pixel a r q).entry k - (pixel b r q).entry k := by
  simp only [pixel, row_sub, entry_sub]

theorem entry_tapped_add [CommRing α] (a b : Tensor α [h, w, c]) (y x i j : Nat) (k : Fin c) :
    (g.tapped (a.add b) y x i j).entry k = (g.tapped a y x i j).entry k + (g.tapped b y x i j).entry k := by
  simp only [entry_tapped_eq_elim]
  cases (g.cell? y x i j : Option (Fin h × Fin w)) with
  | none => exact (add_zero 0).symm
  | some p => simp only [Option.elim_some, entry_pixel_add]

theorem pixel_backwardOn [Scalar α] (a : Activation) (d x : Tensor α [h, w, c]) (r : Fin h) (q : Fin w) :
    pixel (a.backwardOn d x) r q = a.backwardOnRow (pixel d r q) (pixel x r q) := by
  rw [pixel, a.row_backwardOn, a.row_backwardOn, a.backwardOn_row]
  rfl

/-- The way back through an activation, pixel by pixel, is the one of the whole image. -/
theorem zipPixels_backwardOnRow [Scalar α] (a : Activation) (d x : Tensor α [h, w, c]) :
    zipPixels a.backwardOnRow d x = a.backwardOn d x := by
  refine ext_pixel fun r q k => ?_
  rw [zipPixels, pixel_ofPixels, pixel_backwardOn]

variable [CommRing α]

theorem inner_eq_sum_pixel (a b : Tensor α [h, w, c]) :
    a.inner b = ∑ r, ∑ q, ∑ k, (pixel a r q).entry k * (pixel b r q).entry k := by
  rw [inner_eq_sum_row]
  refine Finset.sum_congr rfl fun r _ => ?_
  rw [inner_eq_sum_row]
  exact Finset.sum_congr rfl fun q _ => inner_eq_sum_entry _ _

end WindowGrid

/-! ## One image -/

section Contraction

variable {Y X I J C F : Type} [Fintype Y] [Fintype X] [Fintype I] [Fintype J] [Fintype C] [Fintype F]

/-- A sum over windows and filters of sums over taps and channels, read tap by tap. -/
theorem sum_contract [CommRing α] (d : Y → X → F → α) (a : Y → X → I → J → C → α) (k : I → J → C → F → α) :
    ∑ y, ∑ x, ∑ f, d y x f * ∑ i, ∑ j, ∑ c, a y x i j c * k i j c f =
      ∑ i, ∑ j, ∑ y, ∑ x, ∑ c, a y x i j c * ∑ f, d y x f * k i j c f := by
  have hwindow (y : Y) (x : X) : ∑ f, d y x f * ∑ i, ∑ j, ∑ c, a y x i j c * k i j c f =
      ∑ i, ∑ j, ∑ c, a y x i j c * ∑ f, d y x f * k i j c f := by
    simp only [Finset.mul_sum, mul_left_comm (d y x _)]
    rw [sum_rotate]
    exact Finset.sum_congr rfl fun i _ => Finset.sum_congr rfl fun j _ => Finset.sum_comm
  simp only [hwindow]
  exact sum_comm₂ _

end Contraction

namespace Kernel

variable {z : ConvSizes} {h w : Nat}

/-- The kernel with these weights alone. -/
def plain (weight : Tensor α z.kernelDims) : Kernel α z := ⟨weight, none⟩

variable [CommRing α] {k : Kernel α z}

/-- The weights in the order of their axes. -/
theorem inner_weight (a b : Tensor α z.kernelDims) :
    a.inner b = ∑ i, ∑ j, ∑ c, ∑ f, (((plain a).tap i j).row c).entry f * (((plain b).tap i j).row c).entry f := by
  have hentries := fun (x y : Tensor α [z.filters]) => inner_eq_sum_entry x y
  refine (inner_eq_sum_row _ _).trans (Finset.sum_congr rfl fun i _ => ?_)
  refine (inner_eq_sum_row _ _).trans (Finset.sum_congr rfl fun j _ => ?_)
  exact (inner_eq_sum_row _ _).trans (Finset.sum_congr rfl fun c _ => hentries _ _)

theorem entry_tap_add (a b : Tensor α z.kernelDims) (i : Fin z.grid.rows.kernel) (j : Fin z.grid.columns.kernel)
    (c : Fin z.channels) (f : Fin z.filters) : (((plain (a.add b)).tap i j).row c).entry f =
      (((plain a).tap i j).row c).entry f + (((plain b).tap i j).row c).entry f := by
  have hrow : row (s := [z.grid.columns.kernel, z.channels, z.filters]) (a.add b) i = (row a i).add (row b i) :=
    row_add a b i
  simp only [tap, plain]
  rw [hrow, row_add, row_add, entry_add]

/-- What a convolution comes to without the bias. -/
theorem entry_convolve_plain (weight : Tensor α z.kernelDims) (x : Tensor α (z.imageDims h w))
    (y : Fin (z.grid.outHeight h)) (x' : Fin (z.grid.outWidth w)) (f : Fin z.filters) :
    (pixel ((plain weight).convolve x) y x').entry f =
      ∑ i : Fin z.grid.rows.kernel, ∑ j : Fin z.grid.columns.kernel, ∑ c : Fin z.channels,
        (z.grid.tapped x y x' i j).entry c * (((plain weight).tap i j).row c).entry f :=
  ((plain weight).entry_convolve x y x' f).trans (zero_add _)

/-- A change of the image goes through the weights alone. -/
theorem convolve_add_image (k : Kernel α z) (x u : Tensor α (z.imageDims h w)) :
    (k.convolve (x.add u)).sub (k.convolve x) = (plain k.weight).convolve u := by
  refine ext_pixel fun y q f => ?_
  have htapped (i j : Nat) (c : Fin z.channels) : (z.grid.tapped (x.add u) y q i j).entry c =
      (z.grid.tapped x y q i j).entry c + (z.grid.tapped u y q i j).entry c := entry_tapped_add x u y q i j c
  rw [entry_convolve_plain]
  refine (entry_pixel_sub _ _ y q f).trans ?_
  rw [entry_convolve, entry_convolve, add_sub_add_left_eq_sub]
  simp only [← Finset.sum_sub_distrib, ← sub_mul]
  refine Finset.sum_congr rfl fun i _ => Finset.sum_congr rfl fun j _ => Finset.sum_congr rfl fun c _ => ?_
  rw [htapped, add_sub_cancel_left]
  rfl

/-- A change of the weights goes over the image. -/
theorem convolve_add_weight (k : Kernel α z) (U : Tensor α z.kernelDims) (x : Tensor α (z.imageDims h w)) :
    (({ k with weight := k.weight.add U } : Kernel α z).convolve x).sub (k.convolve x) = (plain U).convolve x := by
  refine ext_pixel fun y q f => ?_
  rw [entry_convolve_plain]
  refine (entry_pixel_sub _ _ y q f).trans ?_
  rw [entry_convolve, entry_convolve, biasAt, biasAt, add_sub_add_left_eq_sub]
  simp only [← Finset.sum_sub_distrib, ← mul_sub]
  refine Finset.sum_congr rfl fun i _ => Finset.sum_congr rfl fun j _ => Finset.sum_congr rfl fun c _ => ?_
  exact congrArg _ (sub_eq_of_eq_add' (entry_tap_add k.weight U i j c f))

/-- A change of the bias is the same at every window. -/
theorem entry_convolve_add_bias (weight : Tensor α z.kernelDims) (b b' : Tensor α [z.filters])
    (x : Tensor α (z.imageDims h w)) (y : Fin (z.grid.outHeight h)) (q : Fin (z.grid.outWidth w)) (f : Fin z.filters) :
    (pixel (sub (s := z.mapDims h w) ((⟨weight, some (b.add b')⟩ : Kernel α z).convolve x)
      ((⟨weight, some b⟩ : Kernel α z).convolve x)) y q).entry f = b'.entry f := by
  refine (entry_pixel_sub _ _ y q f).trans ?_
  rw [entry_convolve, entry_convolve, biasAt, biasAt, Option.elim_some, Option.elim_some, entry_add]
  exact (add_sub_add_right_eq_sub _ _ _).trans (add_sub_cancel_left _ _)

/-! ### Transposes -/

/-- What a pixel comes to under the gradient of a window that reads it through a tap. -/
def through (k : Kernel α z) (i : Fin z.grid.rows.kernel) (j : Fin z.grid.columns.kernel) (p : Tensor α [z.channels])
    (d : Tensor α [z.filters]) : α :=
  ∑ c, p.entry c * d.dot ((k.tap i j).row c)

/-- Padding comes to nothing. -/
theorem through_tapped (k : Kernel α z) (x : Tensor α (z.imageDims h w)) (y q : Nat) (i : Fin z.grid.rows.kernel)
    (j : Fin z.grid.columns.kernel) (d : Tensor α [z.filters]) : k.through i j (z.grid.tapped x y q i j) d =
      (z.grid.cell? y q i j : Option (Fin h × Fin w)).elim 0 fun p => k.through i j (pixel x p.1 p.2) d := by
  unfold tapped
  cases (z.grid.cell? y q i j : Option (Fin h × Fin w)) with
  | none => simp only [through, entry_zeros, zero_mul, Finset.sum_const_zero, Option.elim_none]
  | some p => rfl

/-- A cell gets back, for each tap, what the window that has the tap there makes of its gradient. -/
theorem entry_backward (k : Kernel α z) (d : Tensor α (z.mapDims h w)) (r : Fin h) (p : Fin w) (c : Fin z.channels) :
    (pixel (k.backward d) r p).entry c = ∑ i : Fin z.grid.rows.kernel, ∑ j : Fin z.grid.columns.kernel,
      (z.grid.window? r p i j).elim 0 fun v => (pixel d v.1 v.2).dot ((k.tap i j).row c) := by
  have hpixel := pixel_ofPixels (h := h) (w := w) (c := z.channels) (α := α)
  rw [backward, hpixel, entry_ofEntries, Scalar.sum_eq_sum]
  refine Finset.sum_congr rfl fun i _ => (Scalar.sum_eq_sum _ _).trans (Finset.sum_congr rfl fun j _ => ?_)
  cases z.grid.window? r p i j <;> rfl

/-- What a convolution without a bias comes to under a gradient, tap by tap. -/
theorem inner_convolve_plain (k : Kernel α z) (d : Tensor α (z.mapDims h w)) (x : Tensor α (z.imageDims h w)) :
    d.inner ((plain k.weight).convolve x) = ∑ i : Fin z.grid.rows.kernel, ∑ j : Fin z.grid.columns.kernel,
      ∑ y : Fin (z.grid.outHeight h), ∑ q : Fin (z.grid.outWidth w),
        k.through i j (z.grid.tapped x y q i j) (pixel d y q) := by
  refine (inner_eq_sum_pixel _ _).trans ?_
  simp only [entry_convolve_plain, through, dot_eq_sum_entry]
  exact sum_contract _ _ _

/-- The gradient of the image: a change of the image comes to the same under it as the change that makes of the convolved
image does under the gradient of that. -/
theorem inner_convolve_image (hz : z.grid.Proper) (k : Kernel α z) (d : Tensor α (z.mapDims h w))
    (u : Tensor α (z.imageDims h w)) : d.inner ((plain k.weight).convolve u) = (k.backward d).inner u := by
  have hback (i : Fin z.grid.rows.kernel) (j : Fin z.grid.columns.kernel) (r : Fin h) (p : Fin w) :
      ((z.grid.window? r p i j).elim 0 fun v => k.through i j (pixel u r p) (pixel d v.1 v.2)) =
        ∑ c, (pixel u r p).entry c *
          (z.grid.window? r p i j).elim 0 fun v => (pixel d v.1 v.2).dot ((k.tap i j).row c) := by
    cases z.grid.window? r p i j with
    | none => simp only [Option.elim_none, mul_zero, Finset.sum_const_zero]
    | some v => rfl
  calc d.inner ((plain k.weight).convolve u)
      = ∑ i : Fin z.grid.rows.kernel, ∑ j : Fin z.grid.columns.kernel,
          ∑ y : Fin (z.grid.outHeight h), ∑ q : Fin (z.grid.outWidth w),
          (z.grid.cell? y q i j : Option (Fin h × Fin w)).elim 0 fun p =>
            k.through i j (pixel u p.1 p.2) (pixel d y q) := by
        simp only [inner_convolve_plain, through_tapped]
    _ = ∑ i : Fin z.grid.rows.kernel, ∑ j : Fin z.grid.columns.kernel, ∑ r : Fin h, ∑ p : Fin w,
          (z.grid.window? r p i j).elim 0 fun v => k.through i j (pixel u r p) (pixel d v.1 v.2) := by
        refine Finset.sum_congr rfl fun i _ => Finset.sum_congr rfl fun j _ => ?_
        exact sum_cell? hz i j fun y q r p => k.through i j (pixel u r p) (pixel d y q)
    _ = ∑ r : Fin h, ∑ p : Fin w, ∑ c, (pixel u r p).entry c * (pixel (k.backward d) r p).entry c := by
        simp only [hback, entry_backward, Finset.mul_sum]
        rw [sum_comm₂]
        refine Finset.sum_congr rfl fun r _ => Finset.sum_congr rfl fun p _ => ?_
        -- The channels are summed last where the cells are, and first where the taps are.
        exact (sum_rotate _).symm
    _ = (k.backward d).inner u := (inner_eq_sum_pixel u (k.backward d)).symm.trans (inner_comm _ _)

/-- A weight gets back, from every window, what its tap reads in its channel times the gradient of its filter. -/
theorem entry_gradient (k : Kernel α z) (d : Tensor α (z.mapDims h w)) (x : Tensor α (z.imageDims h w))
    (i : Fin z.grid.rows.kernel) (j : Fin z.grid.columns.kernel) (c : Fin z.channels) (f : Fin z.filters) :
    (((plain (k.gradient d x).weight).tap i j).row c).entry f =
      ∑ y : Fin (z.grid.outHeight h), ∑ q : Fin (z.grid.outWidth w),
        (z.grid.tapped x y q i j).entry c * (pixel d y q).entry f := by
  simp only [plain, tap, gradient, row_ofFn, entry_row_ofMatrix, Scalar.sum_eq_sum]

/-- The gradient of the weights. -/
theorem inner_convolve_weight (k : Kernel α z) (d : Tensor α (z.mapDims h w)) (x : Tensor α (z.imageDims h w))
    (U : Tensor α z.kernelDims) : d.inner ((plain U).convolve x) = (k.gradient d x).weight.inner U := by
  rw [inner_weight]
  refine ((plain U).inner_convolve_plain d x).trans ?_
  refine Finset.sum_congr rfl fun i _ => Finset.sum_congr rfl fun j _ => ?_
  simp only [through, dot_eq_sum_entry, entry_gradient, Finset.mul_sum, Finset.sum_mul, ← mul_assoc]
  exact sum_comm₂ _

/-- The gradient of the bias. -/
theorem inner_convolve_bias (d : Tensor α (z.mapDims h w)) (weight : Tensor α z.kernelDims) (b b' : Tensor α [z.filters])
    (x : Tensor α (z.imageDims h w)) :
    d.inner (((⟨weight, some (b.add b')⟩ : Kernel α z).convolve x).sub ((⟨weight, some b⟩ : Kernel α z).convolve x)) =
      (Tensor.ofEntries fun f => Scalar.sum (z.grid.outHeight h) fun y => Scalar.sum (z.grid.outWidth w) fun q =>
        (pixel d y q).entry f : Tensor α [z.filters]).inner b' := by
  refine (inner_eq_sum_pixel _ _).trans ?_
  trans ∑ y : Fin (z.grid.outHeight h), ∑ q : Fin (z.grid.outWidth w), ∑ f, (pixel d y q).entry f * b'.entry f
  · refine Finset.sum_congr rfl fun y _ => Finset.sum_congr rfl fun q _ => Finset.sum_congr rfl fun f _ => ?_
    rw [entry_convolve_add_bias]
  · simp only [inner_eq_sum_entry, entry_ofEntries, Scalar.sum_eq_sum, Finset.sum_mul]
    exact (sum_rotate _).symm

/-! ### Gradients of many images -/

variable {b : Nat}

/-- The gradient of the weights over a batch is the sum of those of its images. -/
theorem inner_weight_sum (k : Kernel α z) (gradients : Tensor (Kernel α z) [b]) (U : Tensor α z.kernelDims) :
    (k.sum gradients).weight.inner U = ∑ n, (gradients.entry n).weight.inner U := by
  have hstep (a g : Kernel α z) (_ : True) :
      True ∧ (a.add g).weight.inner U = a.weight.inner U + g.weight.inner U :=
    ⟨trivial, add_inner a.weight g.weight U⟩
  obtain ⟨-, hsum⟩ := foldl_eq_sum_of_step (fun _ => True) (fun k : Kernel α z => k.weight.inner U)
    (fun k : Kernel α z => k.weight.inner U) hstep gradients (b := k.zeroLike) trivial
  rw [sum, hsum, zeroLike, zeros_inner, zero_add]

/-- What a change of the bias comes to under a gradient of it: nothing where there is none. -/
def underBias (k : Kernel α z) (u : Tensor α [z.filters]) : α := k.bias.elim 0 (·.inner u)

/-- So is that of the bias, where there is one. -/
theorem inner_bias_sum {k : Kernel α z} {c : Tensor α [z.filters]} (hbias : k.bias = some c)
    (gradients : Tensor (Kernel α z) [b]) : ∃ dc, (k.sum gradients).bias = some dc ∧
      ∀ u : Tensor α [z.filters], dc.inner u = ∑ n, (gradients.entry n).underBias u := by
  have hstep (u : Tensor α [z.filters]) (a g : Kernel α z) (ha : a.bias.isSome) :
      (a.add g).bias.isSome ∧ (a.add g).underBias u = a.underBias u + g.underBias u := by
    obtain ⟨x, hx⟩ := Option.isSome_iff_exists.mp ha
    simp only [underBias, add, hx]
    cases g.bias with
    | none => exact ⟨rfl, (add_zero _).symm⟩
    | some y => exact ⟨rfl, add_inner x y u⟩
  have hzero : k.zeroLike.bias = some (zeros [z.filters]) := by rw [zeroLike, hbias, Option.map_some]
  have hsum (u : Tensor α [z.filters]) := foldl_eq_sum_of_step (fun k : Kernel α z => k.bias.isSome)
    (underBias · u) (underBias · u) (hstep u) gradients (b := k.zeroLike) (by rw [hzero]; rfl)
  obtain ⟨dc, hdc⟩ := Option.isSome_iff_exists.mp (hsum (zeros _)).1
  refine ⟨dc, hdc, fun u => ?_⟩
  have hu := (hsum u).2
  simp only [underBias, hdc, hzero, Option.elim_some, zeros_inner, zero_add] at hu
  exact hu

theorem bias_sum_of_none {k : Kernel α z} (hbias : k.bias = none) (gradients : Tensor (Kernel α z) [b]) :
    (k.sum gradients).bias = none := by
  have hstep (a g : Kernel α z) (ha : a.bias = none) : (a.add g).bias = none := by
    rw [add, ha]
    cases g.bias <;> rfl
  have hzero : k.zeroLike.bias = none := by rw [zeroLike, hbias, Option.map_none]
  exact foldl_induction hstep gradients hzero

/-! ### Batches of images -/

/-- A change of the images of a batch. -/
theorem inner_images (hz : z.grid.Proper) (k : Kernel α z) (d : Tensor α (b :: z.mapDims h w))
    (x u : Tensor α (b :: z.imageDims h w)) :
    d.inner (((x.add u).mapRows k.convolve).sub (x.mapRows k.convolve)) =
      (Tensor.ofFn fun n => k.backward (d.row n)).inner u := by
  rw [inner_eq_sum_row, inner_eq_sum_row]
  refine Finset.sum_congr rfl fun n _ => ?_
  rw [row_sub, row_mapRows, row_mapRows, row_add, row_ofFn, convolve_add_image, inner_convolve_image hz]

/-- A change of the weights, which all images meet. -/
theorem inner_weights (k : Kernel α z) (d : Tensor α (b :: z.mapDims h w)) (x : Tensor α (b :: z.imageDims h w))
    (U : Tensor α z.kernelDims) :
    d.inner ((x.mapRows ({ k with weight := k.weight.add U } : Kernel α z).convolve).sub (x.mapRows k.convolve)) =
      (k.sum (Tensor.ofEntries fun n => k.gradient (d.row n) (x.row n))).weight.inner U := by
  rw [inner_eq_sum_row, inner_weight_sum]
  refine Finset.sum_congr rfl fun n _ => ?_
  rw [row_sub, row_mapRows, row_mapRows, entry_ofEntries, convolve_add_weight, inner_convolve_weight]

/-- A change of the bias, which all images meet. -/
theorem inner_biases {k : Kernel α z} {c : Tensor α [z.filters]} (hbias : k.bias = some c)
    (d : Tensor α (b :: z.mapDims h w)) (x : Tensor α (b :: z.imageDims h w)) :
    ∃ dc, (k.sum (Tensor.ofEntries fun n => k.gradient (d.row n) (x.row n))).bias = some dc ∧
      ∀ u, d.inner ((x.mapRows ({ k with bias := some (c.add u) } : Kernel α z).convolve).sub (x.mapRows k.convolve)) =
        dc.inner u := by
  obtain ⟨dc, hdc, hsum⟩ := inner_bias_sum hbias (Tensor.ofEntries fun n => k.gradient (d.row n) (x.row n))
  obtain ⟨weight, bias⟩ := k
  obtain rfl : bias = some c := hbias
  refine ⟨dc, hdc, fun u => ?_⟩
  rw [inner_eq_sum_row, hsum]
  refine Finset.sum_congr rfl fun n _ => ?_
  rw [row_sub, row_mapRows, row_mapRows, entry_ofEntries, inner_convolve_bias]
  rfl

end Kernel

/-! ## Batches of images -/

namespace Conv2D

variable {z : ConvSizes} {b h w : Nat}

theorem backwardActivation_eq [Scalar α] (l : Conv2D α z) (t : Trace α z h w) (g : Tensor α (z.mapDims h w)) :
    l.backwardActivation t g = l.activation.backwardOn g t.convolved :=
  zipPixels_backwardOnRow l.activation g t.convolved

/-- Traces of a batch and gradients of its feature maps, in pairs. -/
theorem backwardMaps_of_pairs [Scalar α] (l : Conv2D α z) (hz : z.grid.Proper) (traces : AnyTensor (Trace α z h w))
    (maps : AnyTensor (Tensor α (z.mapDims h w))) (pairs : Fin b → Trace α z h w × Tensor α (z.mapDims h w))
    (hpairs : traces.zipWith? Prod.mk maps = some ⟨[b], Tensor.ofEntries pairs⟩) :
    l.backwardMaps ⟨h, w, traces⟩ maps =
      some (⟨b :: z.imageDims h w, Tensor.ofFn fun n => l.backward (pairs n).1 (pairs n).2⟩,
        Weights.named (l.kernel.sum (Tensor.ofEntries fun n => l.gradient (pairs n).1 (pairs n).2))) := by
  have hgradients := Tensor.map_ofEntries (fun p : Trace α z h w × Tensor α (z.mapDims h w) => l.gradient p.1 p.2) pairs
  simp only [backwardMaps, returns_of_proper hz, guard_true, Option.pure_def, hpairs, AnyTensor.dims_map, Option.bind_eq_bind,
    Option.bind_some, AnyTensor.map_ofEntries, AnyTensor.join_ofEntries, Option.some.injEq, Prod.mk.injEq, true_and]
  exact congrArg (fun g => Weights.named (l.kernel.sum g)) hgradients

/-- A gradient of the feature maps of a batch through the layer, image by image. -/
theorem backwardBatch_mk [Scalar α] (l : Conv2D α z) (hz : z.grid.Proper) (images : Tensor α (b :: z.imageDims h w))
    (g : Tensor α (b :: z.mapDims h w)) :
    l.backwardBatch ⟨h, w, ⟨[b], images.mapRows l.trace⟩⟩ ⟨b :: z.mapDims h w, g⟩ =
      .ok (⟨b :: z.imageDims h w, Tensor.ofFn fun n => l.backward (l.trace (images.row n)) (g.row n)⟩,
        Weights.named (l.kernel.sum (Tensor.ofEntries fun n => l.gradient (l.trace (images.row n)) (g.row n)))) := by
  have hpairs : AnyTensor.zipWith? Prod.mk ⟨[b], images.mapRows l.trace⟩ ⟨[b], g⟩ =
      some ⟨[b], Tensor.ofEntries fun n => (l.trace (images.row n), g.row n)⟩ := by
    refine (AnyTensor.zipWith?_one Prod.mk _ _).trans ?_
    simp only [entry_mapRows]
    rfl
  unfold backwardBatch
  simp only [AnyTensor.spreadFamily?_one]
  rw [if_pos (show b :: z.mapDims h w = [b] ++ z.mapDims h w from rfl)]
  exact congrArg RunError.fit (l.backwardMaps_of_pairs hz _ _ _ hpairs)

/-- The gradients of a layer are those of its convolution, from the gradient before the activation. -/
theorem row_backwardOn_convolved [Scalar α] (l : Conv2D α z) (images : Tensor α (b :: z.imageDims h w))
    (g : Tensor α (b :: z.mapDims h w)) (n : Fin b) :
    (l.activation.backwardOn g (images.mapRows l.kernel.convolve)).row n =
      l.backwardActivation (l.trace (images.row n)) (g.row n) := by
  rw [backwardActivation_eq, trace, ← row_mapRows l.kernel.convolve images n]
  exact l.activation.row_backwardOn g (images.mapRows l.kernel.convolve) n

/-- A layer whose windows advance passes back, from a gradient of its results, gradients of its images, its weights and
its bias.  Let `pre` be what a forward pass comes to before the activation, with a kernel and on a batch of images, and
`d` the gradient there that the activation makes of the one after it.  In exact arithmetic each gradient is the transpose
of what it is the gradient of: any change of the images, of the weights or of the bias comes to the same under its
gradient as the change that it makes of `pre` does under `d`. -/
theorem backward_adjoint [ExactScalar α] (l : Conv2D α z) (hz : z.grid.Proper) (haccepts : z.grid.Accepts h w)
    (images : Tensor α (b :: z.imageDims h w)) (g : Tensor α (b :: z.mapDims h w)) :
    ∃ (pre : Kernel α z → Tensor α (b :: z.imageDims h w) → Tensor α (b :: z.mapDims h w)) (y : AnyTensor α)
      (t : BatchTrace α z) (d : Tensor α (b :: z.mapDims h w)) (dx : Tensor α (b :: z.imageDims h w)) (dk : Kernel α z),
      (∀ k x, ∃ y t, forwardBatch ⟨l.activation, k⟩ ⟨b :: z.imageDims h w, x⟩ = .ok (y, t) ∧
        t.convolved = ⟨b :: z.mapDims h w, pre k x⟩) ∧
      l.forwardBatch ⟨b :: z.imageDims h w, images⟩ = .ok (y, t) ∧
      l.activation.backwardOnTensor? ⟨b :: z.mapDims h w, g⟩ t.convolved = some ⟨b :: z.mapDims h w, d⟩ ∧
      l.backwardBatch t ⟨b :: z.mapDims h w, g⟩ = .ok (⟨b :: z.imageDims h w, dx⟩, Weights.named dk) ∧
      (∀ u, d.inner ((pre l.kernel (images.add u)).sub (pre l.kernel images)) = dx.inner u) ∧
      (∀ U, d.inner ((pre { l.kernel with weight := l.kernel.weight.add U } images).sub (pre l.kernel images)) =
        dk.weight.inner U) ∧
      (∀ c, l.kernel.bias = some c → ∃ dc, dk.bias = some dc ∧ ∀ u,
        d.inner ((pre { l.kernel with bias := some (c.add u) } images).sub (pre l.kernel images)) = dc.inner u) ∧
      (l.kernel.bias = none → dk.bias = none) := by
  have hfits := fits_of_accepts hz h w haccepts
  have hback := l.backwardBatch_mk hz images g
  simp only [backward, gradient, ← row_backwardOn_convolved] at hback
  refine ⟨fun k x => x.mapRows k.convolve, _, _, l.activation.backwardOn g (images.mapRows l.kernel.convolve), _, _,
    fun k x => ⟨_, _, forwardBatch_mk ⟨l.activation, k⟩ hfits x, convolved_mk ⟨l.activation, k⟩ x⟩,
    l.forwardBatch_mk hfits images, ?_, hback, fun u => Kernel.inner_images hz _ _ _ _,
    fun U => Kernel.inner_weights _ _ _ _, fun c hc => Kernel.inner_biases hc _ _, fun hnone => ?_⟩
  · rw [l.convolved_mk images]
    exact l.activation.backwardOnTensor?_mk g (images.mapRows l.kernel.convolve)
  · exact Kernel.bias_sum_of_none hnone _

/-- Kernels that advance by more rows than they have and are wider than their images, of which there are two. -/
theorem backward_adjoint_wide :
    let z : ConvSizes := ⟨⟨⟨2, 3, false⟩, ⟨4, 1, false⟩, .same⟩, 1, 2⟩
    let l : Conv2D ℝ z := ⟨.relu, ⟨Tensor.fill 2 _, some (Tensor.fill 1 _)⟩⟩
    let images : Tensor ℝ [2, 4, 3, 1] := Tensor.fill 3 _
    let g : Tensor ℝ (2 :: z.mapDims 4 3) := Tensor.fill 5 _
    z.grid.Proper ∧ z.grid.Accepts 4 3 ∧
      ∃ (y : AnyTensor ℝ) (t : BatchTrace ℝ z) (d : Tensor ℝ (2 :: z.mapDims 4 3)) (dx : Tensor ℝ [2, 4, 3, 1])
        (dk : Kernel ℝ z) (dc : Tensor ℝ [2]),
        l.forwardBatch ⟨[2, 4, 3, 1], images⟩ = .ok (y, t) ∧
        l.activation.backwardOnTensor? ⟨_, g⟩ t.convolved = some ⟨_, d⟩ ∧
        l.backwardBatch t ⟨_, g⟩ = .ok (⟨[2, 4, 3, 1], dx⟩, Weights.named dk) ∧ dk.bias = some dc := by
  intro z l images g
  have hproper : z.grid.Proper := ⟨⟨by decide, by decide, rfl⟩, ⟨by decide, by decide, rfl⟩⟩
  have haccepts : z.grid.Accepts 4 3 := ⟨by decide, by decide⟩
  obtain ⟨pre, y, t, d, dx, dk, -, hforward, hactivation, hbackward, -, -, hbias, -⟩ :=
    backward_adjoint l hproper haccepts images g
  obtain ⟨dc, hdc, -⟩ := hbias _ rfl
  exact ⟨hproper, haccepts, y, t, d, dx, dk, dc, hforward, hactivation, hbackward, hdc⟩

end Conv2D

end LayerStack
