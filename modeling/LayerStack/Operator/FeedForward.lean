import LayerStack.Operator.Dense

/-!
# LayerStack.Operator.FeedForward

Two affine maps of rows with an activation between them: the first widens a row, the second brings it back.
-/

namespace LayerStack

/-- The weights of a feed-forward network on rows of width `d` with `f` numbers inside. -/
structure FeedForwardWeights (α : Type) (d f : Nat) where
  linear1 : Affine α d f
  linear2 : Affine α f d

namespace FeedForwardWeights

variable {α : Type} {d f : Nat}

def zeroLike [Zero α] (w : FeedForwardWeights α d f) : FeedForwardWeights α d f :=
  ⟨w.linear1.zeroLike, w.linear2.zeroLike⟩

def add [Add α] (a b : FeedForwardWeights α d f) : FeedForwardWeights α d f :=
  ⟨a.linear1.add b.linear1, a.linear2.add b.linear2⟩

/-- The sum of gradients. -/
def sum [Zero α] [Add α] (w : FeedForwardWeights α d f) {lead : Dims}
    (gradients : Tensor (FeedForwardWeights α d f) lead) : FeedForwardWeights α d f :=
  gradients.foldl add w.zeroLike

instance : Weights (FeedForwardWeights α d f) α where
  named w := withPrefix "linear1" (Weights.named w.linear1) ++ withPrefix "linear2" (Weights.named w.linear2)
  change g w := ⟨Weights.change (g.under "linear1") w.linear1, Weights.change (g.under "linear2") w.linear2⟩

/-- Fresh weights. -/
def draw [Scalar α] (d f : Nat) : Draw (FeedForwardWeights α d f) := do
  let linear1 ← Affine.draw .glorotUniform true d f
  let linear2 ← Affine.draw .glorotUniform true f d
  return ⟨linear1, linear2⟩

end FeedForwardWeights

/-- A feed-forward network. -/
structure FeedForward (α : Type) (d f : Nat) where
  activation : Activation
  weights : FeedForwardWeights α d f

namespace FeedForward

variable {α : Type} [Scalar α] {d f : Nat}

/-- A row, what the first map makes of it, and what the activation makes of that. -/
structure Trace (α : Type) (d f : Nat) where
  input : Tensor α [d]
  inner : Tensor α [f]
  hidden : Tensor α [f]

def trace (l : FeedForward α d f) (x : Tensor α [d]) : Trace α d f :=
  let inner := l.weights.linear1.apply x
  ⟨x, inner, l.activation.onRow inner⟩

def output (l : FeedForward α d f) (t : Trace α d f) : Tensor α [d] := l.weights.linear2.apply t.hidden

/-- The gradient before the activation. -/
def backwardInner (l : FeedForward α d f) (t : Trace α d f) (cotangent : Tensor α [d]) : Tensor α [f] :=
  l.activation.backwardOnRow (l.weights.linear2.backward cotangent) t.inner

/-- The gradient of a row. -/
def backward (l : FeedForward α d f) (t : Trace α d f) (cotangent : Tensor α [d]) : Tensor α [d] :=
  l.weights.linear1.backward (l.backwardInner t cotangent)

/-- The gradient of the weights from a row. -/
def gradient (l : FeedForward α d f) (t : Trace α d f) (cotangent : Tensor α [d]) : FeedForwardWeights α d f :=
  ⟨l.weights.linear1.gradient (l.backwardInner t cotangent) t.input, l.weights.linear2.gradient cotangent t.hidden⟩

/-! ## Batches -/

/-- The rows of a tensor through the network, and what they leave. -/
def forwardBatch (l : FeedForward α d f) (x : AnyTensor α) :
    Except RunError (AnyTensor α × AnyTensor (Trace α d f)) := do
  let rows ← RunError.fit (x.blocks? [d])
  let traces := rows.map l.trace
  return ((traces.map l.output).join, traces)

/-- The gradient of the input and the sum of the gradients of the weights. -/
def backwardBatch (l : FeedForward α d f) (traces : AnyTensor (Trace α d f)) (cotangent : AnyTensor α) :
    Except RunError (AnyTensor α × FeedForwardWeights α d f) := do
  let (hidden, linear2) ← l.weights.linear2.backwardBatch (traces.map (·.hidden)) cotangent
  let inner ← RunError.fit (l.activation.backwardOnTensor? hidden (traces.map (·.inner)).join)
  let (input, linear1) ← l.weights.linear1.backwardBatch (traces.map (·.input)) inner
  return (input, ⟨linear1, linear2⟩)

end FeedForward

end LayerStack
