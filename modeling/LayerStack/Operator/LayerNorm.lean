import LayerStack.Operator.Parameters
import LayerStack.Value.Compare

/-!
# LayerStack.Operator.LayerNorm

Layer normalization of rows: each is moved to mean zero and scaled to variance one, then scaled and shifted by weights.
-/

namespace LayerStack

/-- The weights of a normalization over some axes; either may be left out. -/
structure ScaleShift (α : Type) (s : Dims) where
  gamma : Option (Tensor α s)
  beta : Option (Tensor α s)

namespace ScaleShift

variable {α : Type} {s : Dims} {n : Nat}

/-- Ones and zeros: the weights that change nothing. -/
def identity [Zero α] [One α] (center scale : Bool) (s : Dims) : ScaleShift α s :=
  ⟨if scale then some (Tensor.fill 1 s) else none, if center then some (Tensor.zeros s) else none⟩

def zeroLike [Zero α] (p : ScaleShift α s) : ScaleShift α s :=
  ⟨p.gamma.map fun _ => Tensor.zeros _, p.beta.map fun _ => Tensor.zeros _⟩

def add [Add α] (a b : ScaleShift α s) : ScaleShift α s := ⟨addOptions a.gamma b.gamma, addOptions a.beta b.beta⟩

/-- The sum of gradients. -/
def sum [Zero α] [Add α] (p : ScaleShift α s) {lead : Dims} (gradients : Tensor (ScaleShift α s) lead) :
    ScaleShift α s :=
  gradients.foldl add p.zeroLike

/-- A row under the scale. -/
def scaled [Mul α] (p : ScaleShift α [n]) (x : Tensor α [n]) : Tensor α [n] :=
  match p.gamma with
  | some g => Tensor.zipWith (· * ·) x g
  | none => x

/-- A row under scale and shift. -/
def apply [Add α] [Mul α] (p : ScaleShift α [n]) (x : Tensor α [n]) : Tensor α [n] :=
  match p.beta with
  | some b => (p.scaled x).add b
  | none => p.scaled x

/-- The gradient of the weights, from the gradient of the result and the normalized row. -/
def gradient [Mul α] (p : ScaleShift α [n]) (cotangent x : Tensor α [n]) : ScaleShift α [n] :=
  ⟨p.gamma.map fun _ => Tensor.zipWith (· * ·) cotangent x, p.beta.map fun _ => cotangent⟩

instance : Weights (ScaleShift α s) α where
  named p := namedOption "gamma" p.gamma ++ namedOption "beta" p.beta
  change f p := ⟨p.gamma.map fun g => f "gamma" g, p.beta.map fun b => f "beta" b⟩

end ScaleShift

/-- A normalization with weights on some axes; `epsilon` is added to the variance.  Rows are normalized by one with a
single axis; any other one takes no input. -/
structure LayerNorm (α : Type) (s : Dims) where
  epsilon : α
  /-- Is the given epsilon within the doubles? -/
  bounded : Bool := true
  weights : ScaleShift α s
  /-- The width as it was given, which rows are held to. -/
  declared : Value

namespace LayerNorm

variable {α : Type} {s : Dims} {n : Nat}

/-- A normalized row and the deviation it was divided by. -/
structure Trace (α : Type) (n : Nat) where
  normalized : Tensor α [n]
  deviation : α

def output [Add α] [Mul α] (l : LayerNorm α [n]) (t : Trace α n) : Tensor α [n] := l.weights.apply t.normalized

/-- The gradient of the weights from a row. -/
def gradient [Mul α] (l : LayerNorm α [n]) (t : Trace α n) (cotangent : Tensor α [n]) : ScaleShift α [n] :=
  l.weights.gradient cotangent t.normalized

section Rows

variable [Zero α] [Add α] [Sub α] [Mul α] [Div α] [NatCast α]

/-- The mean of a row, of which the sum is one of real numbers. -/
def mean (x : Tensor α [n]) : α := (Tensor.map Scalar.real x : Tensor α [n]).total / (n : α)

def variance (x : Tensor α [n]) : α :=
  let m := mean x
  mean (x.map fun a => Scalar.square (a - m))

def trace [Elementary α] (l : LayerNorm α [n]) (x : Tensor α [n]) : Trace α n :=
  let m := mean x
  let deviation := Elementary.sqrt (variance x + l.epsilon)
  ⟨x.map fun a => (a - m) / deviation, deviation⟩

/-- The gradient of a row of a width, from the gradient of the normalized row and the sum of that. -/
def backwardScaled (size : α) (t : Trace α n) (d : Tensor α [n]) (sum : α) : Tensor α [n] :=
  let product := d.dot t.normalized
  Tensor.zipWith (fun a x => (size * a - sum - x * product) / (size * t.deviation)) d t.normalized

/-- The gradient of a row. -/
def backward (l : LayerNorm α [n]) (t : Trace α n) (cotangent : Tensor α [n]) : Tensor α [n] :=
  let d := l.weights.scaled cotangent
  backwardScaled (n : α) t d d.total

end Rows

/-! ## Batches -/

variable [Scalar α]

/-- The rows of a tensor normalized, and what they leave. -/
def normalizeRows (l : LayerNorm α [n]) (x : AnyTensor α) :
    Except RunError (AnyTensor α × AnyTensor (Trace α n)) := do
  let rows ← RunError.fit (x.blocks? [n])
  let traces := rows.map l.trace
  return ((traces.map l.output).join, traces)

/-- The width of the rows that a normalization over some axes takes. -/
abbrev width (s : Dims) : Nat := s.getLastD 1

/-- A batch normalized, and what it leaves. -/
def forwardBatch (l : LayerNorm α s) (x : AnyTensor α) :
    Except RunError (AnyTensor α × AnyTensor (Trace α (width s))) :=
  if (Value.int x.lastAxis).same l.declared then
    if l.bounded then
      match s, l with
      | [_], l => l.normalizeRows x
      | _, _ => .error .mismatch
    else .error .tooLarge
  else .error (.normWidth l.declared x.lastAxis)

/-- The gradients of the weights under their names: sums along all axes of the gradient of the result but its last. -/
def weightGradients (l : LayerNorm α [n]) (traces : AnyTensor (Trace α n)) (cotangent : AnyTensor α) :
    Option (NamedTensors α) := do
  let leading := cotangent.rank - 1
  let products ← cotangent.zipWith? (· * ·) (traces.map (·.normalized)).join
  return (l.weights.gamma.map fun _ => ("gamma", products.sumLeading leading)).toList
    ++ (l.weights.beta.map fun _ => ("beta", cotangent.sumLeading leading)).toList

/-- The gradient of the normalized rows. -/
def scaledBatch (l : LayerNorm α [n]) (cotangent : AnyTensor α) : Option (AnyTensor α) :=
  match l.weights.gamma with
  | some g => cotangent.zipWith? (· * ·) ⟨[n], g⟩
  | none => some cotangent

/-- The gradient of rows and the gradients of the weights.  The width of a row is a whole number, as its entries may
be. -/
def backwardRows (l : LayerNorm α [n]) (traces : AnyTensor (Trace α n)) (cotangent : AnyTensor α) :
    Option (AnyTensor α × NamedTensors α) := do
  let d ← l.scaledBatch cotangent
  let sums := d.foldLast Tensor.total
  let rows ← (← d.spreadBlocks? [n]).zipWith? Prod.mk sums
  let inputs ← traces.zipWith? (fun t (d, sum) => backwardScaled (Scalar.ofNumber (.int n)) t d sum) rows
  return (inputs.join, ← l.weightGradients traces cotangent)

/-- The gradient of the input and the gradients of the weights. -/
def backwardBatch (l : LayerNorm α s) (traces : AnyTensor (Trace α (width s))) (cotangent : AnyTensor α) :
    Except RunError (AnyTensor α × NamedTensors α) :=
  match s, l, traces with
  | [_], l, traces => RunError.fit (l.backwardRows traces cotangent)
  | _, _, _ => .error .mismatch

/-- A fresh layer. -/
def fresh (epsilon : Number) (center scale : Bool) (s : Dims) (declared : Value) : LayerNorm α s :=
  { epsilon := Scalar.ofNumber epsilon, bounded := epsilon.hasDouble
    weights := ScaleShift.identity center scale s, declared }

end LayerNorm

end LayerStack
