import LayerStack.Layer.Config
import LayerStack.Operator
import LayerStack.Value.Share

/-!
# LayerStack.Operator.Build

Fresh operators for the settings of a layer and the shape of what it is given.

A builder guards what it needs by itself: a shape may come with or without the batch axis, and a length in it may not be
known.  Settings that come out of a shape plan pass all of these guards.
-/

namespace LayerStack

/-- A shape whose lengths may be of any form; one that is absent is not known. -/
abbrev LooseShape := List Value

/-- The shape of known lengths. -/
def LooseShape.ofShape (shape : Shape) : LooseShape := shape.map .int

namespace LooseShape

/-- Is a length known, and not below one? -/
def isWidth (width : Value) : Bool := width.quantity?.any fun n => !Number.lt n (.int 1)

/-- A length as a width. -/
def widthOf (width : Value) : Except RunError Nat := (RunError.whole width).map Int.toNat

end LooseShape

/-! ## Guards -/

namespace PositionTable

/-- The width and the kind of a table for a shape. -/
def sizeFor (greatest : Number) (encoding : Value) (shape : LooseShape) : Except RunError (Nat × EncodingType) :=
  match shape.reverse with
  | width :: length :: lead =>
    if 1 < lead.length then .error (.build (.encodingRank shape))
    else if width matches .absent then .error (.build .encodingWidth)
    else if length.quantity?.any (Number.lt greatest) then
      .error (.build (.encodingLength length (.ofNumber greatest)))
    else
      match (LayerConfig.named? EncodingType.ofName?) encoding with
      | some encoding => (LooseShape.widthOf width).map (·, encoding)
      | none => .error (.build (.encodingType encoding))
  | _ => .error (.build (.encodingRank shape))

end PositionTable

/-- The inner width of a feed-forward network: four times the outer one where none is set. -/
def innerWidth (inner width : Nat) : Nat := if inner = 0 then 4 * width else inner

/-- Is a rate a probability? -/
def isProbability (rate : Number) : Bool := Number.le (.int 0) rate && Number.le rate (.int 1)

namespace AttentionConfig

/-- The width of the values of a head. -/
def valueSize (c : AttentionConfig) : Int := if c.valueWidth.getD 0 = 0 then c.keyWidth else c.valueWidth.getD 0

/-- The width of the rows of a shape. -/
def width (c : AttentionConfig) (shape : LooseShape) : Except RunError Nat :=
  match shape.reverse with
  | width :: _ :: _ =>
    if !LooseShape.isWidth width then .error (.build (.attentionWidth width))
    else if c.heads < 1 ∨ c.keyWidth < 1 then .error (.build .attentionHeads)
    else if c.valueWidth.any (· < 1) then .error (.build .valueWidth)
    else if isProbability c.dropout then LooseShape.widthOf width
    else .error (.build (.dropout (.ofNumber c.dropout)))
  | _ => .error (.build (.attentionRank shape))

end AttentionConfig

namespace BlockConfig

/-- The width of the rows of a shape. -/
def width (c : BlockConfig) (shape : LooseShape) : Except RunError Nat :=
  match shape.reverse with
  | width :: _ :: lead =>
    if 1 < lead.length then .error (.build (.blockRank shape))
    else if !LooseShape.isWidth width then .error (.build (.blockWidth width))
    else if c.heads < 1 ∨ c.keyWidth < 1 ∨ c.hidden < 1 then .error (.build .blockSizes)
    else if isProbability c.dropout then LooseShape.widthOf width
    else .error (.build (.dropout (.ofNumber c.dropout)))
  | _ => .error (.build (.blockRank shape))

end BlockConfig

/-! ## Operators -/

/-- The length of the last axis of a shape. -/
def Shape.lastLength (shape : Shape) : Nat := (shape.getLastD 0).toNat

namespace Operator

variable {α : Type} [Scalar α]

omit [Scalar α] in
/-- What a scheme draws, if there are doubles for the fans of all weights. -/
def drawnBy {β : Type} (scheme : Initializer) (fans : List (Nat × Nat)) (draw : Draw β) : Draw (Except RunError β) :=
  if fans.all fun (m, n) => (scheme.fan? (.int m) (.int n)).isSome then .ok <$> draw else pure (.error .tooLarge)

/-- What is built for the rows of a shape, from their width.  The product of a flattened shape may wrap to a number below
zero, and no weights have an axis of such a length. -/
def forRows (shape : Shape) (build : Nat → Draw (Except RunError (Operator α))) : Draw (Except RunError (Operator α)) :=
  if shape.getLastD 0 < 0 then pure (.error .tooLarge) else build shape.lastLength

/-- A fresh dense layer. -/
def ofDense (inputs units : Nat) (activation : Activation) (useBias : Bool) (scheme : Initializer) :
    Draw (Except RunError (Operator α)) :=
  drawnBy scheme [(inputs, units)] do
    return .dense { layer := ← Dense.draw activation scheme useBias inputs units }

/-- A fresh convolution. -/
def ofConv2D (z : ConvSizes) (activation : Activation) (useBias : Bool) (scheme : Initializer) :
    Draw (Except RunError (Operator α)) :=
  let field := z.grid.rows.kernel * z.grid.columns.kernel
  drawnBy scheme [(field * z.channels, field * z.filters)] do
    return .conv2d { layer := ← Conv2D.draw activation scheme useBias z }

/-- A dropout layer, whose rate has to be a probability. -/
def ofDropout (rate : Number) : Except RunError (Operator α) :=
  (Dropout.checkRate rate).map fun _ => .dropout (Scalar.ofNumber rate) none

/-- A fresh embedding. -/
def ofEmbedding (vocabulary width : Nat) (trainable : Bool) : Draw (Operator α) := do
  return .embedding { layer := ← Embedding.draw trainable vocabulary width }

/-- A fresh normalization. -/
def ofLayerNorm (width : Nat) (epsilon : Number) (center scale : Bool) : Operator α :=
  .layerNorm { layer := LayerNorm.fresh epsilon center scale [width] (.int width) }

/-- A fresh position table for sequences up to a greatest length, of rows of a width. -/
def ofPositions (greatest width : Number) (encoding : EncodingType) : Draw (Operator α) := do
  return .positions { layer := ← PositionTable.draw encoding greatest width }

/-- The fans of the weights of self-attention. -/
def attentionFans (width heads key value : Nat) : List (Nat × Nat) :=
  [(width, heads * key), (width, heads * value), (heads * value, width)]

/-- Fresh self-attention over rows of a width. -/
def ofAttention (c : AttentionConfig) (width : Nat) : Draw (Except RunError (Operator α)) :=
  let (h, k, v) := (c.heads.toNat, c.keyWidth.toNat, c.valueSize.toNat)
  drawnBy .glorotUniform (attentionFans width h k v) do
    return .attention { layer := ← MultiHeadAttention.draw (Scalar.ofNumber c.dropout) c.useBias width h k v }

/-- A fresh feed-forward network. -/
def ofFeedForward (width inner : Nat) (activation : Activation) : Draw (Except RunError (Operator α)) :=
  let f := innerWidth inner width
  drawnBy .glorotUniform [(width, f), (f, width)] do
    return .feedForward { layer := ⟨activation, ← FeedForwardWeights.draw width f⟩ }

/-- A fresh transformer block over rows of a width. -/
def ofBlock (c : BlockConfig) (width : Nat) : Draw (Except RunError (Operator α)) :=
  let (h, k, f) := (c.heads.toNat, c.keyWidth.toNat, innerWidth c.hidden.toNat width)
  drawnBy .glorotUniform (attentionFans width h k k ++ [(width, f), (f, width)]) do
    return .transformerBlock { layer := ← TransformerBlock.draw (Scalar.ofNumber c.dropout) width h k f }

/-- A fresh transformer block, whose dropout rate has to be a probability. -/
def ofRatedBlock (c : BlockConfig) (width : Nat) : Draw (Except RunError (Operator α)) :=
  match Dropout.checkRate c.dropout with
  | .ok _ => ofBlock c width
  | .error e => pure (.error e)

end Operator

namespace WindowGrid

/-- The windows of a kernel and its strides, rows first; a stride below zero runs backwards. -/
def ofSizes (kernel strides : Int × Int) (padding : Padding) : WindowGrid :=
  let axis (kernel stride : Int) : WindowAxis := ⟨kernel.toNat, stride.natAbs, stride < 0⟩
  ⟨axis kernel.1 strides.1, axis kernel.2 strides.2, padding⟩

end WindowGrid

/-! ## Specifications -/

variable {α : Type} [Scalar α]

/-- A fresh position table for a shape. -/
def PositionTable.build (greatest : Number) (encoding : Value) (shape : LooseShape) :
    Draw (Except RunError (Operator α)) :=
  match PositionTable.sizeFor greatest encoding shape with
  | .ok (width, encoding) => do return .ok (← Operator.ofPositions greatest (.int width) encoding)
  | .error e => pure (.error e)

/-- Fresh self-attention for a shape. -/
def AttentionConfig.build (c : AttentionConfig) (shape : LooseShape) : Draw (Except RunError (Operator α)) :=
  match c.width shape with
  | .ok width => Operator.ofAttention c width
  | .error e => pure (.error e)

/-- A fresh transformer block for a shape. -/
def BlockConfig.build (c : BlockConfig) (shape : LooseShape) : Draw (Except RunError (Operator α)) :=
  match c.width shape with
  | .ok width => Operator.ofBlock c width
  | .error e => pure (.error e)

/-- A fresh operator for a layer that takes a shape. -/
def LayerConfig.build (config : LayerConfig) (shape : Shape) : Draw (Except RunError (Operator α)) :=
  let known := LooseShape.ofShape shape
  match config with
  | .dense c =>
    Operator.forRows shape fun width => Operator.ofDense width c.units.toNat c.activation c.useBias c.initializer
  | .conv2d c =>
    Operator.forRows shape fun width =>
      let sizes : ConvSizes := ⟨.ofSizes c.kernel c.strides c.padding, width, c.filters.toNat⟩
      Operator.ofConv2D sizes c.activation c.useBias c.initializer
  | .maxpool2d c => pure (.ok (.maxPool2D (.ofSizes c.pool c.strides c.padding) none))
  | .dropout rate => pure (Operator.ofDropout rate)
  | .flatten => pure (.ok (.flatten none))
  | .embedding c => .ok <$> Operator.ofEmbedding c.vocabulary.toNat c.dimension.toNat c.trainable
  | .multiHeadAttention c => c.build known
  | .layerNorm c =>
    let layer (width : Nat) : Operator α := Operator.ofLayerNorm width c.epsilon c.center c.scale
    if c.center || c.scale then Operator.forRows shape fun width => pure (.ok (layer width))
    else pure (.ok (layer shape.lastLength))
  | .positionalEncoding maxLength encoding => PositionTable.build (.int maxLength) (.text encoding.name) known
  | .transformerBlock c => c.build known
  | .globalAvgPool1d => pure (.ok (.average none))

end LayerStack
