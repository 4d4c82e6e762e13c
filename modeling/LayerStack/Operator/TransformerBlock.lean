import LayerStack.Operator.Attention
import LayerStack.Operator.FeedForward
import LayerStack.Operator.LayerNorm

/-!
# LayerStack.Operator.TransformerBlock

A transformer block: self-attention and then a feed-forward network, each added to what it was given, and each sum
normalized.

In training the attention weights are dropped out, and so is what each branch adds.
-/

namespace LayerStack

/-- The weights of a block over rows of width `d`: `h` heads of width `k`, and `f` numbers inside the network. -/
structure BlockWeights (α : Type) (d h k f : Nat) where
  attention : AttentionWeights α d h k k
  norm1 : ScaleShift α [d]
  feedForward : FeedForwardWeights α d f
  norm2 : ScaleShift α [d]

namespace BlockWeights

variable {α : Type} {d h k f : Nat}

def zeroLike [Zero α] (w : BlockWeights α d h k f) : BlockWeights α d h k f :=
  ⟨w.attention.zeroLike, w.norm1.zeroLike, w.feedForward.zeroLike, w.norm2.zeroLike⟩

def add [Add α] (a b : BlockWeights α d h k f) : BlockWeights α d h k f :=
  ⟨a.attention.add b.attention, a.norm1.add b.norm1, a.feedForward.add b.feedForward, a.norm2.add b.norm2⟩

/-- The sum of gradients. -/
def sum [Zero α] [Add α] (w : BlockWeights α d h k f) {lead : Dims} (gradients : Tensor (BlockWeights α d h k f) lead) :
    BlockWeights α d h k f :=
  gradients.foldl add w.zeroLike

instance : Weights (BlockWeights α d h k f) α where
  named w := withPrefix "attention" (Weights.named w.attention) ++ withPrefix "norm1" (Weights.named w.norm1)
    ++ withPrefix "ffn" (Weights.named w.feedForward) ++ withPrefix "norm2" (Weights.named w.norm2)
  change g w := ⟨Weights.change (g.under "attention") w.attention, Weights.change (g.under "norm1") w.norm1,
    Weights.change (g.under "ffn") w.feedForward, Weights.change (g.under "norm2") w.norm2⟩

/-- Fresh weights. -/
def draw [Scalar α] (d h k f : Nat) : Draw (BlockWeights α d h k f) := do
  let attention ← AttentionWeights.draw true d h k k
  let feedForward ← FeedForwardWeights.draw d f
  return ⟨attention, ScaleShift.identity true true [d], feedForward, ScaleShift.identity true true [d]⟩

end BlockWeights

/-- A transformer block; `dropout` is the rate of all its masks. -/
structure TransformerBlock (α : Type) (d h k f : Nat) where
  dropout : α
  weights : BlockWeights α d h k f

namespace TransformerBlock

variable {α : Type} [Scalar α] {d h k f s : Nat}

/-- What is added to the variances. -/
def epsilon : α := Scalar.decimal 1 6

/-! ## Parts -/

def attention (b : TransformerBlock α d h k f) : MultiHeadAttention α d h k k := ⟨b.dropout, b.weights.attention⟩

def norm1 (b : TransformerBlock α d h k f) : LayerNorm α [d] :=
  { epsilon, weights := b.weights.norm1, declared := .int d }

def feedForward (b : TransformerBlock α d h k f) : FeedForward α d f := ⟨.relu, b.weights.feedForward⟩

def norm2 (b : TransformerBlock α d h k f) : LayerNorm α [d] :=
  { epsilon, weights := b.weights.norm2, declared := .int d }

/-- The masks over one sequence. -/
structure Masks (α : Type) (d h s : Nat) where
  attention : Option (Tensor α [h, s, s])
  branch1 : Option (Tensor α [s, d])
  branch2 : Option (Tensor α [s, d])

/-- What is left of one sequence. -/
structure Trace (α : Type) (d h k f s : Nat) where
  masks : Masks α d h s
  attention : MultiHeadAttention.Trace α d h k k s
  norm1 : Tensor (LayerNorm.Trace α d) [s]
  feedForward : Tensor (FeedForward.Trace α d f) [s]
  norm2 : Tensor (LayerNorm.Trace α d) [s]

/-! ## One sequence -/

/-- The rows of a normalization. -/
def normalized (l : LayerNorm α [d]) (traces : Tensor (LayerNorm.Trace α d) [s]) : Tensor α [s, d] :=
  Tensor.ofFn fun t => l.output (traces.entry t)

/-- A sequence through the block. -/
def trace (b : TransformerBlock α d h k f) (masks : Masks α d h s) (x : Tensor α [s, d]) : Trace α d h k f s :=
  let attention := b.attention.trace masks.attention x
  let sum1 := x.add (Dropout.masked (b.attention.output attention) masks.branch1)
  let norm1 : Tensor (LayerNorm.Trace α d) [s] := Tensor.ofEntries fun t => b.norm1.trace (sum1.row t)
  let middle := normalized b.norm1 norm1
  let feedForward : Tensor (FeedForward.Trace α d f) [s] := Tensor.ofEntries fun t => b.feedForward.trace (middle.row t)
  let fed : Tensor α [s, d] := Tensor.ofFn fun t => b.feedForward.output (feedForward.entry t)
  let sum2 := middle.add (Dropout.masked fed masks.branch2)
  let norm2 : Tensor (LayerNorm.Trace α d) [s] := Tensor.ofEntries fun t => b.norm2.trace (sum2.row t)
  ⟨masks, attention, norm1, feedForward, norm2⟩

def output (b : TransformerBlock α d h k f) (t : Trace α d h k f s) : Tensor α [s, d] := normalized b.norm2 t.norm2

/-- The way back through a normalization of rows. -/
def backwardNorm (l : LayerNorm α [d]) (traces : Tensor (LayerNorm.Trace α d) [s]) (cotangent : Tensor α [s, d]) :
    Tensor α [s, d] × ScaleShift α [d] :=
  let gradients : Tensor (ScaleShift α [d]) [s] :=
    Tensor.ofEntries fun t => l.gradient (traces.entry t) (cotangent.row t)
  (Tensor.ofFn fun t => l.backward (traces.entry t) (cotangent.row t), l.weights.sum gradients)

/-- The way back through the feed-forward network of rows. -/
def backwardFeed (l : FeedForward α d f) (traces : Tensor (FeedForward.Trace α d f) [s]) (cotangent : Tensor α [s, d]) :
    Tensor α [s, d] × FeedForwardWeights α d f :=
  let gradients : Tensor (FeedForwardWeights α d f) [s] :=
    Tensor.ofEntries fun t => l.gradient (traces.entry t) (cotangent.row t)
  (Tensor.ofFn fun t => l.backward (traces.entry t) (cotangent.row t), l.weights.sum gradients)

/-- The gradients of the sequence and of the weights; at each sum the gradient goes down both branches. -/
def backward (b : TransformerBlock α d h k f) (t : Trace α d h k f s) (cotangent : Tensor α [s, d]) :
    Tensor α [s, d] × BlockWeights α d h k f :=
  let (sum2, norm2) := backwardNorm b.norm2 t.norm2 cotangent
  let (fed, feedForward) := backwardFeed b.feedForward t.feedForward (Dropout.masked sum2 t.masks.branch2)
  let (sum1, norm1) := backwardNorm b.norm1 t.norm1 (sum2.add fed)
  let (attended, attention) := b.attention.backward t.attention (Dropout.masked sum1 t.masks.branch1)
  (sum1.add attended, ⟨attention, norm1, feedForward, norm2⟩)

/-! ## Batches -/

/-- What is left of a batch of sequences. -/
structure BatchTrace (α : Type) (d h k f : Nat) where
  length : Nat
  sequences : AnyTensor (Trace α d h k f length)

/-- The masks over the sequences of a batch: all those of the attention, then those of either branch. -/
def masks (b : TransformerBlock α d h k f) (training : Bool) (lead : Dims) (s : Nat) :
    Draw (Tensor (Masks α d h s) lead) := do
  let attention ← Dropout.masks? training b.dropout lead [h, s, s]
  let branch1 ← Dropout.masks? training b.dropout lead [s, d]
  let branch2 ← Dropout.masks? training b.dropout lead [s, d]
  return Tensor.zipWith (fun (a, m₁) m₂ => ⟨a, m₁, m₂⟩) (Tensor.zipWith Prod.mk attention branch1) branch2

/-- A batch of sequences through the block, and what it leaves. -/
def forwardBatch (b : TransformerBlock α d h k f) (training : Bool) (x : AnyTensor α) :
    Draw (Except RunError (AnyTensor α × BatchTrace α d h k f)) :=
  match x.sequences? d with
  | none => pure (.error (.attentionShape (.int d) x.dims))
  | some ⟨s, sequences⟩ => do
    let masks ← b.masks training sequences.dims s
    let traces : AnyTensor (Trace α d h k f s) := ⟨sequences.dims, Tensor.zipWith b.trace masks sequences.value⟩
    return .ok ((traces.map fun t => b.output t).join, ⟨s, traces⟩)

/-- The gradient of the sequences and the gradients of the weights.  The last normalization meets the gradient of the
result as it came, so the gradients of its weights are sums along the axes of that. -/
def backwardBatch (b : TransformerBlock α d h k f) (t : BatchTrace α d h k f) (cotangent : AnyTensor α) :
    Except RunError (AnyTensor α × NamedTensors α) := RunError.fit do
  let results ← t.sequences.zipWith? (fun t g => b.backward t g) (← cotangent.spreadBlocks? [t.length, d])
  let gradients : NamedTensors α := Weights.named (b.weights.sum (results.map (·.2)).value)
  let last ← b.norm2.weightGradients (t.sequences.map (·.norm2)).join cotangent
  return ((results.map (·.1)).join, gradients.update (withPrefix "norm2" last))

/-- A fresh block. -/
def draw (dropout : α) (d h k f : Nat) : Draw (TransformerBlock α d h k f) := do
  return ⟨dropout, ← BlockWeights.draw d h k f⟩

end TransformerBlock

end LayerStack
