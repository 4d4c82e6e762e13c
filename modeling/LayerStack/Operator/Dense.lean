import LayerStack.Layer.Activation
import LayerStack.Layer.Initializer
import LayerStack.Operator.Parameters

/-!
# LayerStack.Operator.Dense

Fully connected layers: an affine map of a row of numbers and an activation after it.

All leading axes are rows to the layer, so what is said here of one row holds of samples and of positions alike.
-/

namespace LayerStack

/-- An affine map of rows, `x ↦ W x + b`. -/
structure Affine (α : Type) (inputs units : Nat) where
  weight : Tensor α [units, inputs]
  bias : Option (Tensor α [units])

namespace Affine

variable {α : Type} {m n : Nat}

def apply [Zero α] [Add α] [Mul α] (a : Affine α m n) (x : Tensor α [m]) : Tensor α [n] :=
  match a.bias with
  | some b => (a.weight.apply x).add b
  | none => a.weight.apply x

/-- The zero map, with a bias where the given map has one. -/
def zeroLike [Zero α] (a : Affine α m n) : Affine α m n :=
  ⟨Tensor.zeros _, a.bias.map fun _ => Tensor.zeros _⟩

def add [Add α] (a b : Affine α m n) : Affine α m n := ⟨a.weight.add b.weight, addOptions a.bias b.bias⟩

/-- The gradient of the input, from the gradient of the result. -/
def backward [Zero α] [Add α] [Mul α] (a : Affine α m n) (cotangent : Tensor α [n]) : Tensor α [m] :=
  a.weight.applyTransposed cotangent

/-- The gradient of the map itself, from the gradient of the result and the input. -/
def gradient [Mul α] (a : Affine α m n) (cotangent : Tensor α [n]) (x : Tensor α [m]) : Affine α m n :=
  ⟨Tensor.outer cotangent x, a.bias.map fun _ => cotangent⟩

/-- The sum of gradients. -/
def sum [Zero α] [Add α] (a : Affine α m n) {lead : Dims} (gradients : Tensor (Affine α m n) lead) : Affine α m n :=
  gradients.foldl add a.zeroLike

/-- The gradient of some rows and that of the map, from the gradients of their results, which come in the same order
along axes of their own. -/
def backwardBatch [Zero α] [Add α] [Mul α] (a : Affine α m n) (inputs : AnyTensor (Tensor α [m]))
    (cotangent : AnyTensor α) : Except RunError (AnyTensor α × Affine α m n) := do
  let rows ← RunError.fit (cotangent.blocks? [n])
  let inputs ← RunError.fit (inputs.regroup? rows.dims)
  let gradients ← RunError.fit (rows.zipWith? a.gradient inputs)
  return ((rows.map a.backward).join, a.sum gradients.value)

instance : Weights (Affine α m n) α where
  named a := ("weight", ⟨[n, m], a.weight⟩) :: namedOption "bias" a.bias
  change f a := ⟨f "weight" a.weight, a.bias.map fun b => f "bias" b⟩

/-- A fresh map: drawn weights and a bias of zeros. -/
def draw [Scalar α] (scheme : Initializer) (useBias : Bool) (m n : Nat) : Draw (Affine α m n) := do
  let weight ← scheme.weights [n, m] (.int m) (.int n)
  return ⟨weight, if useBias then some (Tensor.zeros [n]) else none⟩

end Affine

/-- A fully connected layer. -/
structure Dense (α : Type) (inputs units : Nat) where
  activation : Activation
  map : Affine α inputs units

namespace Dense

variable {α : Type} [Scalar α] {m n : Nat}

/-- A row before and after the affine map. -/
structure Trace (α : Type) (inputs units : Nat) where
  input : Tensor α [inputs]
  affine : Tensor α [units]

def trace (d : Dense α m n) (x : Tensor α [m]) : Trace α m n := ⟨x, d.map.apply x⟩

def output (d : Dense α m n) (t : Trace α m n) : Tensor α [n] := d.activation.onRow t.affine

/-! ## Batches -/

/-- The rows of a tensor through the layer, and what they leave. -/
def forwardBatch (d : Dense α m n) (x : AnyTensor α) : Except RunError (AnyTensor α × AnyTensor (Trace α m n)) := do
  let rows ← RunError.fit (x.blocks? [m])
  let traces := rows.map d.trace
  return ((traces.map d.output).join, traces)

/-- The gradient of the input and the sum of the gradients of the weights. -/
def backwardBatch (d : Dense α m n) (traces : AnyTensor (Trace α m n)) (cotangent : AnyTensor α) :
    Except RunError (AnyTensor α × Affine α m n) := do
  let inner ← RunError.fit (d.activation.backwardOnTensor? cotangent (traces.map (·.affine)).join)
  d.map.backwardBatch (traces.map (·.input)) inner

/-- A fresh layer. -/
def draw (activation : Activation) (scheme : Initializer) (useBias : Bool) (m n : Nat) : Draw (Dense α m n) := do
  return ⟨activation, ← Affine.draw scheme useBias m n⟩

end Dense

end LayerStack
