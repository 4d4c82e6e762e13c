import LayerStack.Proofs.Scalar.Real
import LayerStack.Proofs.Operator.Forward
import LayerStack.Proofs.Operator.Pooling
import LayerStack.Proofs.Tensor.Batch
import LayerStack.Scalar.Mixed

/-!
# LayerStack.Proofs.Operator.Pooling.Routing

The way back through a pooled image loses nothing.

Each cell gets back the gradients of the windows that took it (`entry_pooledBackward`).  A window took one cell, so every
gradient goes to one cell, and all the gradients together come to the same before and after (`total_pooledBackward`).

Padding is no word.  So words are pooled where no padding is asked for, and are refused where it is, even if none would
come to stand anywhere (`poolBatch_words`).
-/

namespace LayerStack

open Tensor

namespace WindowGrid

variable {α β : Type} {g : WindowGrid} {h w c : Nat}

/-! ## One image -/

/-- A cell gets back what the windows hold that took a tap of theirs which lies on it. -/
theorem entry_pooledBackward_eq_sum [AddCommMonoid β] (hg : g.Proper)
    (taken : Tensor (Option Tap) [g.outHeight h, g.outWidth w, c]) (G : Tensor β [g.outHeight h, g.outWidth w, c])
    (r : Fin h) (q : Fin w) (k : Fin c) :
    (pixel (g.pooledBackward taken G) r q).entry k =
      ∑ y : Fin (g.outHeight h), ∑ x : Fin (g.outWidth w), ∑ i : Fin g.rows.kernel, ∑ j : Fin g.columns.kernel,
        if g.OnCell y x i j r q ∧ (pixel taken y x).entry k = some (i.val, j.val) then (pixel G y x).entry k else 0 := by
  rw [pooledBackward, routed, pixel_ofPixels, entry_ofEntries, Scalar.sum_eq_sum, sum_comm₂]
  refine Finset.sum_congr rfl fun i _ => (Scalar.sum_eq_sum _ _).trans (Finset.sum_congr rfl fun j _ => ?_)
  have helim := elim_eq_sum (g.window? r q i j) fun p =>
    if (pixel taken p.1 p.2).entry k = some (i.val, j.val) then (pixel G p.1 p.2).entry k else 0
  rw [← Fintype.sum_prod_type']
  refine Eq.trans ?_ (helim.trans (Finset.sum_congr rfl fun p _ => ?_))
  · cases g.window? r q i j with
    | none => rfl
    | some p => simp only [beq_iff_eq, Option.elim_some]
  · rw [ite_and]
    exact if_congr (window?_eq_some hg) rfl rfl

section Image

variable [Scalar α] {finite : α → Prop} {image : Tensor α [h, w, c]}

theorem entry_pooled (hfinite : Comparable finite) (hg : g.Proper) (himage : ∀ r q k, finite ((pixel image r q).entry k))
    (y : Fin (g.outHeight h)) (x : Fin (g.outWidth w)) (k : Fin c) :
    ∃ r q, g.Takes image y x k r q ∧
      (pixel (pooled (g.taken Scalar.least? image)) y x).entry k = (pixel image r q).entry k := by
  obtain ⟨tap, r, q, htaken, -, -, htakes⟩ := taken_spec hfinite hg himage y x k
  refine ⟨r, q, htakes, ?_⟩
  rw [pooled, pixel, row_map, row_map, entry_map]
  exact congrArg (fun o => (Option.map Prod.snd o).getD 0) htaken

variable [AddCommMonoid β]

open Classical in
/-- A cell gets back what the windows hold that took it. -/
theorem entry_pooledBackward (hfinite : Comparable finite) (hg : g.Proper)
    (himage : ∀ r q k, finite ((pixel image r q).entry k)) (G : Tensor β [g.outHeight h, g.outWidth w, c]) (r : Fin h)
    (q : Fin w) (k : Fin c) :
    (pixel (g.pooledBackward (tapsOf (g.taken Scalar.least? image)) G) r q).entry k =
      ∑ y : Fin (g.outHeight h), ∑ x : Fin (g.outWidth w),
        if g.Takes image y x k r q then (pixel G y x).entry k else 0 := by
  rw [entry_pooledBackward_eq_sum hg]
  refine Finset.sum_congr rfl fun y _ => Finset.sum_congr rfl fun x _ => ?_
  obtain ⟨⟨i, j⟩, r', q', htaken, htap, hcell, htakes⟩ := taken_spec hfinite hg himage y x k
  obtain ⟨hi, hj⟩ := mem_taps.mp htap
  have htook : (pixel (tapsOf (g.taken Scalar.least? image)) y x).entry k = some (i, j) := by
    rw [tapsOf, pixel, row_map, row_map, entry_map]
    exact congrArg (Option.map Prod.fst) htaken
  -- Of the taps only the one that was taken counts, and it lies on one cell.
  have hiff : g.OnCell y x i j r q ↔ g.Takes image y x k r q := by
    constructor
    · intro hcell'
      obtain ⟨rfl, rfl⟩ := hcell.unique hcell'
      exact htakes
    · intro htakes'
      obtain ⟨rfl, rfl⟩ := htakes.unique htakes'
      exact hcell
  rw [Finset.sum_eq_single ⟨i, hi⟩, Finset.sum_eq_single ⟨j, hj⟩]
  · simp only [htook, and_true, hiff]
  · intro j' _ hne
    refine if_neg fun hboth => hne (Fin.ext ?_)
    simp only [htook, Option.some.injEq, Prod.mk.injEq] at hboth
    exact hboth.2.2.symm
  · simp
  · intro i' _ hne
    refine Finset.sum_eq_zero fun j' _ => if_neg fun hboth => hne (Fin.ext ?_)
    simp only [htook, Option.some.injEq, Prod.mk.injEq] at hboth
    exact hboth.2.1.symm
  · simp

theorem total_eq_sum_pixel (a : Tensor β [h, w, c]) : a.total = ∑ r, ∑ q, ∑ k, (pixel a r q).entry k := by
  rw [total_eq_sum_row]
  refine Finset.sum_congr rfl fun r _ => ?_
  rw [total_eq_sum_row]
  exact Finset.sum_congr rfl fun q _ => total_eq_sum_entry _

/-- Nothing is lost and nothing is added. -/
theorem total_pooledBackward (hfinite : Comparable finite) (hg : g.Proper)
    (himage : ∀ r q k, finite ((pixel image r q).entry k)) (G : Tensor β [g.outHeight h, g.outWidth w, c]) :
    (g.pooledBackward (tapsOf (g.taken Scalar.least? image)) G).total = G.total := by
  classical
  have hwindow (y : Fin (g.outHeight h)) (x : Fin (g.outWidth w)) (k : Fin c) :
      ∑ r : Fin h, ∑ q : Fin w, (if g.Takes image y x k r q then (pixel G y x).entry k else 0) =
        (pixel G y x).entry k := by
    obtain ⟨_, r, q, _, _, _, htakes⟩ := taken_spec hfinite hg himage y x k
    rw [Finset.sum_eq_single r, Finset.sum_eq_single q, if_pos htakes]
    · exact fun q' _ hne => if_neg fun htakes' => hne (htakes'.unique htakes).2
    · simp
    · exact fun r' _ hne => Finset.sum_eq_zero fun q' _ => if_neg fun htakes' => hne (htakes'.unique htakes).1
    · simp
  rw [total_eq_sum_pixel, total_eq_sum_pixel]
  -- The channels are summed inside of the windows, and then the windows outside of the cells.
  simp only [entry_pooledBackward hfinite hg himage, sum_rotate (X := Fin c)]
  rw [sum_comm₂]
  refine Finset.sum_congr rfl fun y _ => Finset.sum_congr rfl fun x _ => ?_
  rw [← sum_rotate]
  exact Finset.sum_congr rfl fun k _ => hwindow y x k

end Image

/-! ## Batches of images -/

variable {b : Nat}

/-- A batch of images pooled, image by image. -/
theorem poolBatch_mk [Scalar α] (images : Tensor α [b, h, w, c]) (hwords : g.padsWords ⟨[b, h, w, c], images⟩ = false)
    (hfits : g.fits h w = true) (htaps : g.taps ≠ []) :
    g.poolBatch ⟨[b, h, w, c], images⟩ =
      .ok (⟨[b, g.outHeight h, g.outWidth w, c], Tensor.ofFn fun n => pooled (g.taken Scalar.least? (images.row n))⟩,
        ⟨h, w, c, ⟨[b], Tensor.ofEntries fun n => tapsOf (g.taken Scalar.least? (images.row n))⟩⟩) := by
  have htaken := AnyTensor.map_one (fun image : Tensor α [h, w, c] => g.taken Scalar.least? image) images
  have hpooled : ((AnyTensor.map (fun image : Tensor α [h, w, c] => g.taken Scalar.least? image) ⟨[b], images⟩).map
      pooled).join = ⟨[b, g.outHeight h, g.outWidth w, c],
        Tensor.ofFn fun n => pooled (g.taken Scalar.least? (images.row n))⟩ := by
    rw [htaken, AnyTensor.map_ofEntries, AnyTensor.join_ofEntries]
  have htraces : (AnyTensor.map (fun image : Tensor α [h, w, c] => g.taken Scalar.least? image) ⟨[b], images⟩).map
      tapsOf = ⟨[b], Tensor.ofEntries fun n => tapsOf (g.taken Scalar.least? (images.row n))⟩ := by
    rw [htaken, AnyTensor.map_ofEntries]
  unfold poolBatch
  simp only [fit_some (AnyTensor.blocks?_one images), hwords]
  rw [← hpooled, ← htraces]
  exact if_pos ⟨hfits, htaps⟩

/-- Padding is no word, so words are not pooled where there may be some. -/
theorem poolBatch_words [Scalar α] (images : Tensor α [b, h, w, c])
    (hwords : g.padsWords ⟨[b, h, w, c], images⟩ = true) : g.poolBatch ⟨[b, h, w, c], images⟩ = .error .tooLarge := by
  unfold poolBatch
  simp only [fit_some (AnyTensor.blocks?_one images), hwords]
  rfl

/-- A gradient of a pooled batch through it, image by image. -/
theorem poolBackwardBatch_mk [ExactScalar β] (hg : g.Proper)
    (taken : Fin b → Tensor (Option Tap) [g.outHeight h, g.outWidth w, c])
    (G : Tensor β [b, g.outHeight h, g.outWidth w, c]) :
    poolBackwardBatch ⟨h, w, c, ⟨[b], Tensor.ofEntries taken⟩⟩ ⟨[b, g.outHeight h, g.outWidth w, c], G⟩ =
      .ok ⟨[b, h, w, c], Tensor.ofFn fun n => g.pooledBackward (taken n) (G.row n)⟩ := by
  have hmap : AnyTensor.map Scalar.real ⟨[b, g.outHeight h, g.outWidth w, c], G⟩ =
      ⟨[b, g.outHeight h, g.outWidth w, c], G⟩ := congrArg (AnyTensor.mk _) (map_eq_self Scalar.real_eq_self G)
  have hblocks := AnyTensor.blocks?_one G
  have hpairs : AnyTensor.zipWith? (fun taken u => g.pooledBackward taken u) ⟨[b], Tensor.ofEntries taken⟩
      (⟨[b], G⟩ : AnyTensor (Tensor β [g.outHeight h, g.outWidth w, c])) =
      some ⟨[b], Tensor.ofEntries fun n => g.pooledBackward (taken n) (G.row n)⟩ := by
    refine (AnyTensor.zipWith?_one _ _ _).trans ?_
    simp only [entry_ofEntries]
    rfl
  have hjoin := AnyTensor.join_ofEntries fun n => g.pooledBackward (taken n) (G.row n)
  unfold poolBackwardBatch
  simp only [hmap, List.cons_append, List.nil_append, if_true, returns_of_proper hg, guard_true, hblocks]
  rw [← hjoin]
  exact congrArg (fun o => RunError.fit (o.bind fun images => some images.join)) hpairs

open Classical in
/-- Windows that advance pool every batch of images over which the shape rule counts a window along either axis, into as
many rows and columns as it counts; only words are not taken where padding is asked for.  Where the values of the images
are compared as numbers are, each window passes on the value of one of its cells: of the largest ones the first in
row-major order, and there always is one.  Of a gradient, each cell gets back the sum of what the windows hold that took
it, so in exact arithmetic all of it comes back. -/
theorem pool_routes [Scalar α] [ExactScalar β] {finite : α → Prop} (hfinite : Comparable finite) (hg : g.Proper)
    (haccepts : g.Accepts h w) (images : Tensor α [b, h, w, c])
    (himages : ∀ n r q k, finite ((pixel (images.row n) r q).entry k)) :
    (g.padsWords ⟨[b, h, w, c], images⟩ = true → g.poolBatch ⟨[b, h, w, c], images⟩ = .error .tooLarge) ∧
    (g.padsWords ⟨[b, h, w, c], images⟩ = false →
      ∃ (rows columns : Nat) (out : Tensor α [b, rows, columns, c]) (t : PoolTrace g),
        (rows : Int) = windowCount h g.rows.kernel g.rows.stride g.padding ∧
        (columns : Int) = windowCount w g.columns.kernel g.columns.stride g.padding ∧
        g.poolBatch ⟨[b, h, w, c], images⟩ = .ok (⟨[b, rows, columns, c], out⟩, t) ∧
        (∀ n (y : Fin rows) (x : Fin columns) k, ∃ r q, g.Takes (images.row n) y x k r q ∧
          (pixel (out.row n) y x).entry k = (pixel (images.row n) r q).entry k) ∧
        ∀ G : Tensor β [b, rows, columns, c], ∃ dx : Tensor β [b, h, w, c],
          poolBackwardBatch t ⟨[b, rows, columns, c], G⟩ = .ok ⟨[b, h, w, c], dx⟩ ∧
          (∀ n r q k, (pixel (dx.row n) r q).entry k = ∑ y : Fin rows, ∑ x : Fin columns,
            if g.Takes (images.row n) y x k r q then (pixel (G.row n) y x).entry k else 0) ∧
          dx.total = G.total) := by
  have hrows := outHeight_eq hg h
  have hcolumns := outWidth_eq hg w
  have hfits := fits_of_accepts hg h w haccepts
  have htaps := g.taps_ne_nil hg.rows.kernel_pos hg.columns.kernel_pos
  obtain ⟨hheight, hwidth⟩ := haccepts
  refine ⟨poolBatch_words images, fun hwords => ?_⟩
  refine ⟨g.outHeight h, g.outWidth w, _, _, by omega, by omega, poolBatch_mk images hwords hfits htaps,
    fun n y x k => ?_, fun G => ⟨_, poolBackwardBatch_mk hg _ G, fun n r q k => ?_, ?_⟩⟩
  · rw [row_ofFn]
    exact entry_pooled hfinite hg (himages n) y x k
  · rw [row_ofFn]
    exact entry_pooledBackward hfinite hg (himages n) (G.row n) r q k
  · rw [total_eq_sum_row, total_eq_sum_row]
    refine Finset.sum_congr rfl fun n _ => ?_
    rw [row_ofFn]
    exact total_pooledBackward hfinite hg (himages n) (G.row n)

/-- Windows of two rows and two columns that overlap and run over the edge of an image of equal values: each passes on
that value, and of nine gradients of two none is lost. -/
theorem pool_routes_ties :
    let g : WindowGrid := ⟨⟨2, 1, false⟩, ⟨2, 1, false⟩, .same⟩
    let images : Tensor ℝ [1, 3, 3, 1] := Tensor.fill 5 _
    let G : Tensor ℝ [1, 3, 3, 1] := Tensor.fill 2 _
    Comparable (fun _ : ℝ => True) ∧ g.Proper ∧ g.Accepts 3 3 ∧ g.padsWords ⟨[1, 3, 3, 1], images⟩ = false ∧
      ∃ (out : Tensor ℝ [1, 3, 3, 1]) (t : PoolTrace g) (dx : Tensor ℝ [1, 3, 3, 1]),
        g.poolBatch ⟨[1, 3, 3, 1], images⟩ = .ok (⟨[1, 3, 3, 1], out⟩, t) ∧
        (∀ y x, (pixel (out.row 0) y x).entry 0 = 5) ∧
        poolBackwardBatch t ⟨[1, 3, 3, 1], G⟩ = .ok ⟨[1, 3, 3, 1], dx⟩ ∧ dx.total = 18 := by
  intro g images G
  have hcomparable : Comparable (fun _ : ℝ => True) :=
    { total := fun {a b} _ _ => le_total a b
      trans := fun _ _ _ => le_trans
      least := fun h => absurd h (by simp [Scalar.least?])
      above := fun h => absurd h (by simp [Scalar.least?]) }
  have hproper : g.Proper := ⟨⟨by decide, by decide, rfl⟩, ⟨by decide, by decide, rfl⟩⟩
  have haccepts : g.Accepts 3 3 := ⟨by decide, by decide⟩
  have hwords : g.padsWords ⟨[1, 3, 3, 1], images⟩ = false := padsWords_eq_false (fun _ => rfl) _
  obtain ⟨rows, columns, out, t, hrows, hcolumns, hpool, hout, hback⟩ :=
    (pool_routes (β := ℝ) hcomparable hproper haccepts images (fun _ _ _ _ => trivial)).2 hwords
  have hcount : windowCount 3 2 1 .same = 3 := by decide
  obtain rfl : rows = 3 := by exact_mod_cast hrows.trans hcount
  obtain rfl : columns = 3 := by exact_mod_cast hcolumns.trans hcount
  obtain ⟨dx, hdx, -, htotal⟩ := hback G
  refine ⟨hcomparable, hproper, haccepts, hwords, out, t, dx, hpool, fun y x => ?_, hdx, htotal.trans ?_⟩
  · obtain ⟨r, q, -, hvalue⟩ := hout 0 y x 0
    simpa [images, pixel] using hvalue
  · simp [G, total_eq_sum_row]
    norm_num [total, foldl, fill]

/-- One window that covers an image of words takes it without padding, and fails where padding is asked for though there
is no place for any. -/
theorem pool_words_fails :
    let bare : WindowGrid := ⟨⟨2, 2, false⟩, ⟨2, 2, false⟩, .valid⟩
    let padded : WindowGrid := { bare with padding := .same }
    let images : Tensor Mixed [1, 2, 2, 1] := Tensor.fill (.word 3) _
    padded.Proper ∧ padded.Accepts 2 2 ∧ padded.rows.lead .same 2 = 0 ∧
      (∃ (out : Tensor Mixed [1, 1, 1, 1]) (t : PoolTrace bare),
        bare.poolBatch ⟨[1, 2, 2, 1], images⟩ = .ok (⟨[1, 1, 1, 1], out⟩, t)) ∧
      padded.poolBatch ⟨[1, 2, 2, 1], images⟩ = .error .tooLarge := by
  intro bare padded images
  have hproper : padded.Proper := ⟨⟨by decide, by decide, rfl⟩, ⟨by decide, by decide, rfl⟩⟩
  exact ⟨hproper, ⟨by decide, by decide⟩, by decide, ⟨_, _, poolBatch_mk images rfl rfl (by decide)⟩,
    poolBatch_words images rfl⟩

end WindowGrid

end LayerStack
