import LayerStack.Operator.Collapse
import LayerStack.Operator.Conv2D
import LayerStack.Operator.Embedding
import LayerStack.Operator.MaxPool2D
import LayerStack.Operator.TransformerBlock

/-!
# LayerStack.Operator

The operators a model is a chain of.

An operator takes a batch forward and a gradient back, and keeps between the two what the way back needs.  Its tensors
are of three sorts: *parameters*, which training moves; *frozen* weights, which it leaves alone; and *constants*, which
are no weights at all.  A pass that fails leaves the operator as it was.
-/

namespace LayerStack

/-- An operator with what its last passes left. -/
inductive Operator (α : Type) where
  | dense {m n : Nat} (cell : Cell α (Dense α m n) (AnyTensor (Dense.Trace α m n)))
  | conv2d {z : ConvSizes} (cell : Cell α (Conv2D α z) (Conv2D.BatchTrace α z))
  | maxPool2D (grid : WindowGrid) (trace : Option (WindowGrid.PoolTrace grid))
  /-- Dropout at a rate, with the mask of the last pass if it drew one. -/
  | dropout (rate : α) (mask : Option (AnyTensor α))
  /-- Flattening, with the axes of the last batch. -/
  | flatten (dims : Option Dims)
  /-- Averaging over positions, with the axes of the last batch. -/
  | average (dims : Option Dims)
  | layerNorm {s : Dims} (cell : Cell α (LayerNorm α s) (AnyTensor (LayerNorm.Trace α (LayerNorm.width s))))
  | embedding {v d : Nat} (cell : Cell α (Embedding α v d) (AnyTensor (Fin v)))
  /-- A position table, with the length of the last sequences. -/
  | positions {n d : Nat} (cell : Cell α (PositionTable α n d) Nat)
  | attention {d h k v : Nat} (cell : Cell α (MultiHeadAttention α d h k v) (MultiHeadAttention.BatchTrace α d h k v))
  | feedForward {d f : Nat} (cell : Cell α (FeedForward α d f) (AnyTensor (FeedForward.Trace α d f)))
  | transformerBlock {d h k f : Nat}
    (cell : Cell α (TransformerBlock α d h k f) (TransformerBlock.BatchTrace α d h k f))
  /-- A layer that says nothing of what it computes. -/
  | undefined

namespace Operator

variable {α : Type}

/-- The name of an operator's kind. -/
def kind : Operator α → String
  | .dense _ => "dense"
  | .conv2d _ => "conv2d"
  | .maxPool2D .. => "maxpool2d"
  | .dropout .. => "dropout"
  | .flatten _ => "flatten"
  | .average _ => "globalAvgPool1d"
  | .layerNorm _ => "layerNorm"
  | .embedding _ => "embedding"
  | .positions _ => "positionalEncoding"
  | .attention _ => "multiHeadAttention"
  | .feedForward _ => "feedForward"
  | .transformerBlock _ => "transformerBlock"
  | .undefined => "layer"

/-! ## Tables -/

/-- An embedding's table under its name. -/
def embeddingTable {v d : Nat} (x : Tensor α [v, d]) : NamedTensors α := [("embedding_table", ⟨[v, d], x⟩)]

/-- A position table under its name. -/
def encodingTable {n d : Nat} (x : Tensor α [n, d]) : NamedTensors α := [("encoding_table", ⟨[n, d], x⟩)]

/-! ## Passes -/

variable [Scalar α]

/-- A batch forward.  Only a pass in training draws from the stream, and only for masks. -/
def forward (training : Bool) (x : AnyTensor α) : Operator α → Draw (Except RunError (AnyTensor α) × Operator α)
  | .dense c => pure ((c.pass (c.layer.forwardBatch x)).map id .dense)
  | .conv2d c => pure ((c.pass (c.layer.forwardBatch x)).map id .conv2d)
  | .maxPool2D grid trace =>
    match grid.poolBatch x with
    | .ok (y, trace) => pure (.ok y, .maxPool2D grid (some trace))
    | .error e => pure (.error e, .maxPool2D grid trace)
  | .dropout rate _ =>
    if Dropout.isActive training rate then do
      let mask ← Dropout.mask rate x.dims
      return (.ok ⟨x.dims, x.value.zipWith (· * ·) mask⟩, .dropout rate (some ⟨x.dims, mask⟩))
    else pure (.ok x, .dropout rate none)
  | .flatten _ => pure (Flatten.forwardBatch x, .flatten (some x.dims))
  | .average _ => pure (Average.forwardBatch x, .average (some x.dims))
  | .layerNorm c => pure ((c.pass (c.layer.forwardBatch x)).map id .layerNorm)
  | .embedding c => pure ((c.pass (c.layer.forwardBatch x)).map id .embedding)
  | .positions c => pure ((c.pass (c.layer.forwardBatch x)).map id .positions)
  | .attention c => do return (c.pass (← c.layer.forwardBatch training x)).map id .attention
  | .feedForward c => pure ((c.pass (c.layer.forwardBatch x)).map id .feedForward)
  | .transformerBlock c => do return (c.pass (← c.layer.forwardBatch training x)).map id .transformerBlock
  | .undefined => pure (.error .undefined, .undefined)

/-- The way back of a position table: the gradient passes as it is, and is collected where the table is trained. -/
def backwardPositions {n d : Nat} (c : Cell α (PositionTable α n d) Nat) (cotangent : AnyTensor α) :
    Except RunError (AnyTensor α) × Operator α :=
  if c.layer.learned then
    (c.wayBack fun length => do
      let table : Tensor α [n, d] ← PositionTable.gradientBatch length cotangent
      return (cotangent, encodingTable table)).map id .positions
  else (.ok cotangent, .positions c)

/-- The way back of an embedding, which collects a gradient where the table is trained.  A table that is not trained
passes back a single zero if nothing was looked up. -/
def backwardEmbedding {v d : Nat} (c : Cell α (Embedding α v d) (AnyTensor (Fin v))) (cotangent : AnyTensor α) :
    Except RunError (AnyTensor α) × Operator α :=
  match c.trace with
  | none => (if c.layer.trainable then .error .mismatch else .ok ⟨[], 0⟩, .embedding c)
  | some tokens =>
    match c.layer.backwardBatch tokens cotangent with
    | .ok (zeros, gradient) => (.ok zeros, .embedding { c with gradient := gradient.map embeddingTable })
    | .error e => (.error e, .embedding c)

/-- A gradient back through the last forward pass. -/
def backward (cotangent : AnyTensor α) : Operator α → Except RunError (AnyTensor α) × Operator α
  | .dense c => (c.wayBack fun t => namedGradient (c.layer.backwardBatch t cotangent)).map id .dense
  | .conv2d c => (c.wayBack fun t => c.layer.backwardBatch t cotangent).map id .conv2d
  | .maxPool2D grid trace =>
    match trace with
    | some t => (WindowGrid.poolBackwardBatch t cotangent, .maxPool2D grid trace)
    | none => (.error .mismatch, .maxPool2D grid trace)
  | .dropout rate mask =>
    match mask with
    | some m => (RunError.fit (cotangent.zipWith? (· * ·) m), .dropout rate mask)
    | none => (.ok cotangent, .dropout rate mask)
  | .flatten dims =>
    match dims with
    | some s => (Flatten.backwardBatch s cotangent, .flatten dims)
    | none => (.ok cotangent, .flatten dims)
  | .average dims =>
    match dims with
    | some s => (Average.backwardBatch s cotangent, .average dims)
    | none => (.error .mismatch, .average dims)
  | .layerNorm c => (c.wayBack fun t => c.layer.backwardBatch t cotangent).map id .layerNorm
  | .embedding c => backwardEmbedding c cotangent
  | .positions c => backwardPositions c cotangent
  | .attention c => (c.wayBack fun t => namedGradient (c.layer.backwardBatch t cotangent)).map id .attention
  | .feedForward c => (c.wayBack fun t => namedGradient (c.layer.backwardBatch t cotangent)).map id .feedForward
  | .transformerBlock c => (c.wayBack fun t => c.layer.backwardBatch t cotangent).map id .transformerBlock
  | .undefined => (.error .undefined, .undefined)

/-! ## Tensors -/

omit [Scalar α] in
/-- The weights that training moves. -/
def parameters : Operator α → NamedTensors α
  | .dense c => Weights.named c.layer.map
  | .conv2d c => Weights.named c.layer.kernel
  | .layerNorm c => Weights.named c.layer.weights
  | .embedding c => if c.layer.trainable then embeddingTable c.layer.table else []
  | .positions c => if c.layer.learned then encodingTable c.layer.table else []
  | .attention c => Weights.named c.layer.weights
  | .feedForward c => Weights.named c.layer.weights
  | .transformerBlock c => Weights.named c.layer.weights
  | .maxPool2D .. | .dropout .. | .flatten _ | .average _ | .undefined => []

omit [Scalar α] in
/-- The gradients of the last way back. -/
def gradient? : Operator α → Option (NamedTensors α)
  | .dense c => c.gradient
  | .conv2d c => c.gradient
  | .layerNorm c => c.gradient
  | .embedding c => c.gradient
  | .positions c => c.gradient
  | .attention c => c.gradient
  | .feedForward c => c.gradient
  | .transformerBlock c => c.gradient
  | .maxPool2D .. | .dropout .. | .flatten _ | .average _ | .undefined => none

omit [Scalar α] in
/-- The gradients of the parameters, none before the first way back. -/
def gradients (o : Operator α) : List (String × Option (AnyTensor α)) :=
  match o.gradient? with
  | some g => g.map fun (name, x) => (name, some x)
  | none => o.parameters.map fun (name, _) => (name, none)

omit [Scalar α] in
/-- The weights that training leaves alone. -/
def frozen : Operator α → NamedTensors α
  | .embedding c => if c.layer.trainable then [] else embeddingTable c.layer.table
  | _ => []

omit [Scalar α] in
/-- The tables that are no weights. -/
def constants : Operator α → NamedTensors α
  | .positions c => if c.layer.learned then [] else encodingTable c.layer.table
  | _ => []

omit [Scalar α] in
/-- The attention weights of the last forward pass, of an operator that attends. -/
def attention? : Operator α → Option (AnyTensor α)
  | .attention c => c.trace.map (·.attention)
  | .transformerBlock c => c.trace.map fun t => (t.sequences.map (·.attention.attention)).join
  | _ => none

omit [Scalar α] in
/-- Changes the parameters by name. -/
def change (f : TensorChange α) : Operator α → Operator α
  | .dense c => .dense { c with layer := { c.layer with map := Weights.change f c.layer.map } }
  | .conv2d c => .conv2d { c with layer := { c.layer with kernel := Weights.change f c.layer.kernel } }
  | .layerNorm c => .layerNorm { c with layer := { c.layer with weights := Weights.change f c.layer.weights } }
  | .embedding c =>
    if c.layer.trainable then
      .embedding { c with layer := { c.layer with table := f "embedding_table" c.layer.table } }
    else .embedding c
  | .positions c =>
    if c.layer.learned then .positions { c with layer := { c.layer with table := f "encoding_table" c.layer.table } }
    else .positions c
  | .attention c => .attention { c with layer := { c.layer with weights := Weights.change f c.layer.weights } }
  | .feedForward c => .feedForward { c with layer := { c.layer with weights := Weights.change f c.layer.weights } }
  | .transformerBlock c =>
    .transformerBlock { c with layer := { c.layer with weights := Weights.change f c.layer.weights } }
  | o => o

omit [Scalar α] in
/-- The operator without the mask of its last pass. -/
def unmasked : Operator α → Operator α
  | .dropout rate _ => .dropout rate none
  | o => o

omit [Scalar α] in
/-- The number of entries of some tensors. -/
def entryCount (tensors : NamedTensors α) : Nat := tensors.foldr (fun (_, x) n => x.size + n) 0

omit [Scalar α] in
/-- The number of entries that training moves. -/
def trainableCount (o : Operator α) : Nat := entryCount o.parameters

omit [Scalar α] in
/-- The number of entries of all weights. -/
def totalCount (o : Operator α) : Nat := o.trainableCount + entryCount o.frozen

end Operator

end LayerStack
