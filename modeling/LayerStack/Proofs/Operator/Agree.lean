import LayerStack.Proofs.Operator.Pass
import LayerStack.Proofs.Shape.Window

/-!
# LayerStack.Proofs.Operator.Agree

Operators make of a batch what the shape rules say they do.

The shape rule of a layer and its operator know nothing of each other.  For an operator made for a layer and a batch of
samples of the shape that the layer takes, `passes_forward` says that the operator makes samples of the shape that the
rule makes; only an embedding may refuse the batch, if it are no tokens of its table.
-/

namespace LayerStack

variable {α : Type}

/-! ## Samples of a shape -/

namespace Shape

variable {shape : Shape}

/-- The axes of a sample. -/
def dims (shape : Shape) : Dims := shape.map Int.toNat

theorem map_dims (h : shape.Positive) : shape.dims.map Int.ofNat = shape := by
  rw [dims, List.map_map]
  refine (List.map_congr_left fun n hn => ?_).trans (List.map_id shape)
  have hpos := h n hn
  exact Int.toNat_of_nonneg (by omega)

theorem dims_of_map {dims : Dims} (h : dims.map Int.ofNat = shape) : dims = shape.dims := by
  rw [Shape.dims, ← h, List.map_map]
  exact (List.map_id dims).symm

theorem volume_dims (h : shape.Positive) : (Dims.volume shape.dims : Int) = shape.entries := by
  rw [entries_eq_prod]
  induction shape with
  | nil => rfl
  | cons n shape ih =>
      obtain ⟨hn, hshape⟩ := positive_cons.mp h
      have hvolume : Dims.volume (dims (n :: shape)) = n.toNat * Dims.volume (dims shape) := rfl
      rw [hvolume, List.prod_cons, ← ih hshape, Nat.cast_mul, Int.toNat_of_nonneg (by omega)]

/-- The last axis of a sample is as long as the shape says. -/
theorem exists_dims_eq (h : shape ≠ []) : ∃ lead, shape.dims = lead ++ [shape.lastLength] := by
  refine ⟨shape.dropLast.map Int.toNat, ?_⟩
  have hlast : shape.lastLength = (shape.getLast h).toNat := by
    rw [lastLength, List.getLastD_eq_getLast?, List.getLast?_eq_some_getLast h]
    rfl
  rw [hlast, dims]
  conv => lhs; rw [← List.dropLast_append_getLast h]
  rw [List.map_append]
  rfl

end Shape

namespace Operator

variable [Scalar α] {config : LayerConfig} {shape out : Shape} {o : Operator α}

/-- What may come of a batch of samples that a layer makes samples of a shape of: a batch of those, or an embedding's
word that the batch are no tokens. -/
def Passes (config : LayerConfig) (b : Nat) (out : Shape) (result : Except RunError (AnyTensor α)) : Prop :=
  (∃ y, result = .ok y ∧ y.dims = b :: out.dims) ∨
    (∃ c, config = .embedding c) ∧ ∃ e, result = .error e ∧ Embedding.IsTokenFault e

variable {b : Nat} {x : AnyTensor α}

omit [Scalar α] in
theorem passes_ok {y : AnyTensor α} {result : Except RunError (AnyTensor α)} (h : result = .ok y)
    (hy : y.dims = b :: out.dims) : Passes config b out result := .inl ⟨y, h, hy⟩

omit [Scalar α] in
theorem passes_pass {L T : Type} {c : Cell α L T} {result : Except RunError (AnyTensor α × T)}
    (h : ∃ y t, result = .ok (y, t) ∧ y.dims = b :: out.dims) : Passes config b out (c.pass result).1 := by
  obtain ⟨y, t, hrun, hy⟩ := h
  exact passes_ok (Cell.pass_of_ok hrun) hy

/-- Over a sample of a shape an operator runs the windows that the shape rule counts. -/
theorem fits_of_shape {kernel strides sizes : Int × Int} {padding : Padding} {h w channels : Int} {what : String}
    (hkernel : LayerConfig.Spans kernel) (hstrides : LayerConfig.Spans strides)
    (hpositive : Shape.Positive [h, w, channels])
    (hwindows : Shape.windows what kernel strides (h, w) padding = .ok sizes) :
    (WindowGrid.ofSizes kernel strides padding).fits h.toNat w.toNat = true ∧
      (WindowGrid.ofSizes kernel strides padding).outHeight h.toNat = sizes.1.toNat ∧
      (WindowGrid.ofSizes kernel strides padding).outWidth w.toNat = sizes.2.toNat := by
  obtain ⟨hh, hrest⟩ := Shape.positive_cons.mp hpositive
  obtain ⟨hw, _⟩ := Shape.positive_cons.mp hrest
  have hheight : ((h.toNat : Nat) : Int) = h := Int.toNat_of_nonneg (by omega)
  have hwidth : ((w.toNat : Nat) : Int) = w := Int.toNat_of_nonneg (by omega)
  rw [← hheight, ← hwidth] at hwindows
  obtain ⟨hfits, hrows, hcolumns⟩ := WindowGrid.fits_of_windows hkernel hstrides hwindows
  exact ⟨hfits, by omega, by omega⟩

theorem taps_ofSizes {pool : Int × Int} (hpool : LayerConfig.Spans pool) (strides : Int × Int) (padding : Padding) :
    (WindowGrid.ofSizes pool strides padding).taps ≠ [] := by
  obtain ⟨hheight, hwidth⟩ := hpool
  apply WindowGrid.taps_ne_nil
  · simp only [WindowGrid.ofSizes]
    omega
  · simp only [WindowGrid.ofSizes]
    omega

/-- An operator that is made for a layer makes samples of the shape that the layer's rule makes. -/
theorem passes_forward (hwords : ∀ a : α, Scalar.isWord a = false) (hmade : MadeFor config shape o)
    (hvalid : config.Valid) (hmakes : LayerConfig.Makes config shape out) (hpositive : shape.Positive)
    (hne : shape ≠ []) (hfew : shape.entries < Word.half) (hx : x.dims = b :: shape.dims) (training : Bool) (stream : Stream) :
    Passes config b out (o.forward training x stream).1.1 := by
  cases hmade with
  | dense cell =>
      cases hmakes with
      | @dense c n => exact passes_pass (Dense.forwardBatch_of_dims cell.layer (show x.dims = [b] ++ [n.toNat] from hx))
  | conv2d cell =>
      cases hmakes with
      | conv2d hwindows =>
          obtain ⟨_, hkernel, hstrides⟩ := hvalid
          obtain ⟨hfits, hheight, hwidth⟩ := fits_of_shape hkernel hstrides hpositive hwindows
          refine passes_pass ?_
          obtain ⟨y, t, hrun, hy⟩ := Conv2D.forwardBatch_of_dims cell.layer hx hfits
          refine ⟨y, t, hrun, hy.trans ?_⟩
          simp only [ConvSizes.mapDims, ConvConfig.sizes, hheight, hwidth]
          rfl
  | @maxpool2d c _ trace =>
      cases hmakes with
      | maxpool2d hwindows =>
          obtain ⟨hpool, hstrides⟩ := hvalid
          obtain ⟨hfits, hheight, hwidth⟩ := fits_of_shape hpool hstrides hpositive hwindows
          have htaps := taps_ofSizes hpool c.strides c.padding
          obtain ⟨y, t, hrun, hy⟩ :=
            WindowGrid.poolBatch_of_dims hx (WindowGrid.padsWords_eq_false hwords x) hfits htaps
          refine passes_ok (y := y) (by simp only [forward, hrun]; rfl) (hy.trans ?_)
          rw [hheight, hwidth]
          rfl
  | dropout rate mask =>
      cases hmakes
      simp only [forward]
      split
      · exact passes_ok rfl hx
      · exact passes_ok rfl hx
  | flatten dims =>
      cases hmakes
      obtain ⟨y, hrun, hy⟩ := Flatten.forwardBatch_of_dims hx
      refine passes_ok hrun ?_
      rw [hy, Shape.wordProduct_eq hpositive hfew, ← Shape.volume_dims hpositive]
      rfl
  | embedding cell =>
      cases hmakes with
      | embedding hlength =>
          rcases Embedding.forwardBatch_cases cell.layer x with ⟨e, hrun, hfault⟩ | ⟨y, t, hrun, hy⟩
          · exact .inr ⟨⟨_, rfl⟩, e, by simp only [forward, hrun]; rfl, hfault⟩
          · exact passes_pass ⟨y, t, hrun, by rw [hy, hx]; rfl⟩
  | multiHeadAttention cell =>
      cases hmakes with
      | multiHeadAttention =>
          exact passes_pass (MultiHeadAttention.forwardBatch_of_dims cell.layer hx training stream)
  | layerNorm cell hbounded hdeclared =>
      cases hmakes
      obtain ⟨lead, hdims⟩ := Shape.exists_dims_eq hne
      rw [hdims] at hx
      obtain ⟨y, t, hrun, hy⟩ := LayerNorm.forwardBatch_of_dims hbounded hdeclared (show x.dims = (b :: lead) ++ _ from hx)
      exact passes_pass ⟨y, t, hrun, by rw [hy, hdims]; rfl⟩
  | @positionalEncoding greatest _ _ cell hgreatest hfits hgradient =>
      cases hmakes with
      | @positionalEncoding _ _ length width hlength =>
          have hle : ((length.toNat : Nat) : Int) ≤ greatest := by
            have hone := (Shape.positive_cons.mp hpositive).1
            omega
          exact passes_pass (PositionTable.forwardBatch_of_dims hgreatest rfl hfits hle
            (show x.dims = [b] ++ [length.toNat, width.toNat] from hx))
  | transformerBlock cell =>
      cases hmakes with
      | transformerBlock =>
          exact passes_pass (TransformerBlock.forwardBatch_of_dims cell.layer hx training stream)
  | globalAvgPool1d dims =>
      cases hmakes with
      | globalAvgPool1d =>
          obtain ⟨y, hrun, hy⟩ := Average.forwardBatch_of_dims hx
          exact passes_ok hrun hy

end Operator

end LayerStack
