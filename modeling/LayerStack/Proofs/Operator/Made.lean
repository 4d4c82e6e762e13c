import LayerStack.Proofs.Shape.Chain

/-!
# LayerStack.Proofs.Operator.Made

The operators that a plan's layers are built into.

`Operator.MadeFor` says that an operator is one for the settings of a layer and the shape of what it is given: of the
right kind, and of the right sizes.  `builds_build` is the reason why the guards of the builders never fire: settings
that are valid for a shape the layer can take pass all of them, and what is built is made for them.  What is left to stop
a builder are weights without a place among the machine numbers: with fans past the doubles, or with the rows of a
flattened shape whose length has wrapped to a number below zero.
-/

namespace LayerStack

/-- The sizes of a convolution with given settings over images of a shape. -/
def ConvConfig.sizes (c : ConvConfig) (shape : Shape) : ConvSizes :=
  ⟨.ofSizes c.kernel c.strides c.padding, shape.lastLength, c.filters.toNat⟩

namespace Operator

variable {α : Type}

/-- An operator for the settings of a layer and the shape it is given, whatever its weights and what its last passes
left. -/
inductive MadeFor : LayerConfig → Shape → Operator α → Prop
  | dense {c : DenseConfig} {shape : Shape}
    (cell : Cell α (Dense α shape.lastLength c.units.toNat) (AnyTensor (Dense.Trace α shape.lastLength c.units.toNat))) :
    MadeFor (.dense c) shape (.dense cell)
  | conv2d {c : ConvConfig} {shape : Shape}
    (cell : Cell α (Conv2D α (c.sizes shape)) (Conv2D.BatchTrace α (c.sizes shape))) :
    MadeFor (.conv2d c) shape (.conv2d cell)
  | maxpool2d {c : PoolConfig} {shape : Shape}
    (trace : Option (WindowGrid.PoolTrace (.ofSizes c.pool c.strides c.padding))) :
    MadeFor (.maxpool2d c) shape (.maxPool2D (.ofSizes c.pool c.strides c.padding) trace)
  | dropout {given : Number} {shape : Shape} (rate : α) (mask : Option (AnyTensor α)) :
    MadeFor (.dropout given) shape (.dropout rate mask)
  | flatten {shape : Shape} (dims : Option Dims) : MadeFor .flatten shape (.flatten dims)
  | embedding {c : EmbeddingConfig} {shape : Shape}
    (cell : Cell α (Embedding α c.vocabulary.toNat c.dimension.toNat) (AnyTensor (Fin c.vocabulary.toNat))) :
    MadeFor (.embedding c) shape (.embedding cell)
  | multiHeadAttention {c : AttentionConfig} {shape : Shape}
    (cell : Cell α (MultiHeadAttention α shape.lastLength c.heads.toNat c.keyWidth.toNat c.valueSize.toNat)
      (MultiHeadAttention.BatchTrace α shape.lastLength c.heads.toNat c.keyWidth.toNat c.valueSize.toNat)) :
    MadeFor (.multiHeadAttention c) shape (.attention cell)
  | layerNorm {c : NormConfig} {shape : Shape}
    (cell : Cell α (LayerNorm α [shape.lastLength])
      (AnyTensor (LayerNorm.Trace α (LayerNorm.width [shape.lastLength]))))
    (hbounded : cell.layer.bounded = true) (hdeclared : cell.layer.declared = .int shape.lastLength) :
    MadeFor (.layerNorm c) shape (.layerNorm cell)
  | positionalEncoding {greatest : Int} {encoding : EncodingType} {shape : Shape}
    (cell : Cell α (PositionTable α greatest.toNat shape.lastLength) Nat)
    (hgreatest : cell.layer.greatest = .int greatest) (hfits : cell.layer.fits = .int shape.lastLength)
    (hgradient : cell.layer.learned = false → cell.gradient = none) :
    MadeFor (.positionalEncoding greatest encoding) shape (.positions cell)
  | transformerBlock {c : BlockConfig} {shape : Shape}
    (cell : Cell α
      (TransformerBlock α shape.lastLength c.heads.toNat c.keyWidth.toNat (innerWidth c.hidden.toNat shape.lastLength))
      (TransformerBlock.BatchTrace α shape.lastLength c.heads.toNat c.keyWidth.toNat
        (innerWidth c.hidden.toNat shape.lastLength))) :
    MadeFor (.transformerBlock c) shape (.transformerBlock cell)
  | globalAvgPool1d {shape : Shape} (dims : Option Dims) : MadeFor .globalAvgPool1d shape (.average dims)

/-- Operators made for the layers of a plan, one for each. -/
def AllMade (layers : List ResolvedLayer) (operators : List (Operator α)) : Prop :=
  List.Forall₂ (fun layer o => MadeFor layer.config layer.input o) layers operators

/-! ## Guards -/

/-- What a scheme draws is drawn, unless there is no double for the fans. -/
theorem drawnBy_eq {β : Type} (scheme : Initializer) (fans : List (Nat × Nat)) (draw : Draw β) (stream : Stream) :
    (drawnBy scheme fans draw stream).1 = .ok (draw stream).1 ∨ (drawnBy scheme fans draw stream).1 = .error .tooLarge := by
  unfold drawnBy
  split
  · exact .inl rfl
  · exact .inr rfl

theorem isWidth_int {n : Int} (hn : 1 ≤ n) : LooseShape.isWidth (.int n) = true := by
  have hlt : ¬ n < 1 := by omega
  simp [LooseShape.isWidth, Value.quantity?, Value.unboxed, Value.number?, Number.lt, Number.compare?,
    Int.compare_eq_lt, hlt]

theorem widthOf_int (n : Int) : LooseShape.widthOf (.int n) = .ok n.toNat := rfl

/-- Self-attention takes rows of at least one number. -/
theorem width_of_attention {c : AttentionConfig} (length : Int) {width : Int}
    (hvalid : LayerConfig.Valid (.multiHeadAttention c)) (hwidth : 1 ≤ width) :
    c.width (.ofShape [length, width]) = .ok width.toNat := by
  obtain ⟨hheads, hkey, hvalue, hdropout⟩ := hvalid
  have hsizes : ¬ (c.heads < 1 ∨ c.keyWidth < 1) := by omega
  have hvalues : c.valueWidth.any (· < 1) = false := by
    cases hv : c.valueWidth with
    | none => rfl
    | some w =>
        have hw := hvalue w hv
        simp
        omega
  simp [AttentionConfig.width, LooseShape.ofShape, isWidth_int hwidth, hsizes, hvalues, hdropout, widthOf_int]

/-- So does a transformer block. -/
theorem width_of_block {c : BlockConfig} (length : Int) {width : Int}
    (hvalid : LayerConfig.Valid (.transformerBlock c)) (hwidth : 1 ≤ width) :
    c.width (.ofShape [length, width]) = .ok width.toNat := by
  obtain ⟨hheads, hkey, hhidden, hdropout⟩ := hvalid
  have hsizes : ¬ (c.heads < 1 ∨ c.keyWidth < 1 ∨ c.hidden < 1) := by omega
  simp [BlockConfig.width, LooseShape.ofShape, isWidth_int hwidth, hsizes, hdropout, widthOf_int]

/-- A position table takes sequences that are not longer than it. -/
theorem sizeFor_positions {greatest length width : Int} (encoding : EncodingType) (hlength : length ≤ greatest) :
    PositionTable.sizeFor (.int greatest) (.text encoding.name) (.ofShape [length, width]) =
      .ok (width.toNat, encoding) := by
  have hlt : ¬ greatest < length := by omega
  have hencoding : EncodingType.ofName? encoding.name = some encoding := by cases encoding <;> decide
  simp [PositionTable.sizeFor, LooseShape.ofShape, Value.quantity?, Value.unboxed, Value.number?, Number.lt,
    Number.compare?, Int.compare_eq_lt, hlt, LayerConfig.named?, hencoding, widthOf_int, Except.map]

/-! ## Building -/

/-- A builder's result: an operator made for a layer, or weights whose fans are too large. -/
def Builds (config : LayerConfig) (shape : Shape) (result : Except RunError (Operator α)) : Prop :=
  (∃ o, result = .ok o ∧ MadeFor config shape o) ∨ result = .error .tooLarge

variable {config : LayerConfig} {shape out : Shape}

theorem builds_ok {o : Operator α} (h : MadeFor config shape o) : Builds config shape (.ok o) := .inl ⟨o, rfl, h⟩

theorem builds_drawnBy {scheme : Initializer} {fans : List (Nat × Nat)} {draw : Draw (Operator α)} (stream : Stream)
    (h : MadeFor config shape (draw stream).1) : Builds config shape (drawnBy scheme fans draw stream).1 := by
  rcases drawnBy_eq scheme fans draw stream with hdrawn | hdrawn
  · exact .inl ⟨_, hdrawn, h⟩
  · exact .inr hdrawn

theorem builds_forRows {build : Nat → Draw (Except RunError (Operator α))} (stream : Stream)
    (h : Builds config shape (build shape.lastLength stream).1) :
    Builds config shape (forRows shape build stream).1 := by
  unfold forRows
  split
  · exact .inr rfl
  · exact h

variable [Scalar α]

/-- For valid settings and a shape that the layer takes, a builder's guards do not fire. -/
theorem builds_build (hvalid : config.Valid) (hwide : shape.Wide) (h : LayerConfig.Makes config shape out)
    (stream : Stream) : Builds config shape (config.build shape stream : Except RunError (Operator α) × Stream).1 := by
  cases h with
  | dense => exact builds_forRows stream (builds_drawnBy stream (.dense _))
  | conv2d hwindows => exact builds_forRows stream (builds_drawnBy stream (.conv2d _))
  | maxpool2d hwindows => exact builds_ok (.maxpool2d none)
  | @dropout rate =>
      have hrate : Dropout.checkRate rate = .ok () := if_pos hvalid
      simp only [LayerConfig.build, ofDropout, hrate]
      exact builds_ok (.dropout _ none)
  | flatten => exact builds_ok (.flatten none)
  | embedding hlength => exact builds_ok (.embedding _)
  | @multiHeadAttention c length width =>
      have hwidth := width_of_attention length hvalid (hwide length width rfl)
      simp only [LayerConfig.build, AttentionConfig.build, hwidth]
      exact builds_drawnBy stream (.multiHeadAttention _)
  | layerNorm =>
      simp only [LayerConfig.build]
      split
      · exact builds_forRows stream (builds_ok (.layerNorm _ hvalid rfl))
      · exact builds_ok (.layerNorm _ hvalid rfl)
  | @positionalEncoding greatest encoding length width hlength =>
      simp only [LayerConfig.build, PositionTable.build, sizeFor_positions encoding hlength]
      cases encoding with
      | sinusoidal | learned => exact builds_ok (.positionalEncoding _ rfl rfl fun _ => rfl)
  | @transformerBlock c length width =>
      have hwidth := width_of_block length hvalid (hwide length width rfl)
      simp only [LayerConfig.build, BlockConfig.build, hwidth]
      exact builds_drawnBy stream (.transformerBlock _)
  | globalAvgPool1d => exact builds_ok (.globalAvgPool1d none)

end Operator

end LayerStack
