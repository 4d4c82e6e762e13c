import LayerStack.Layer.Activation
import LayerStack.Layer.Initializer
import LayerStack.Operator.Window

/-!
# LayerStack.Operator.Conv2D

Convolution of images whose channels come last.

Each window is the sum over its taps and over the channels of cell times weight, where a tap on padding reads zeros.
-/

namespace LayerStack

open WindowGrid

/-- The sizes of a convolution. -/
structure ConvSizes where
  grid : WindowGrid
  channels : Nat
  filters : Nat
deriving Repr, DecidableEq

namespace ConvSizes

def kernelDims (z : ConvSizes) : Dims := [z.grid.rows.kernel, z.grid.columns.kernel, z.channels, z.filters]

/-- The shape of an image of `h` rows and `w` columns. -/
def imageDims (z : ConvSizes) (h w : Nat) : Dims := [h, w, z.channels]

/-- The shape of its feature map. -/
def mapDims (z : ConvSizes) (h w : Nat) : Dims := [z.grid.outHeight h, z.grid.outWidth w, z.filters]

end ConvSizes

/-- The weights of a convolution: by tap, channel and filter, and a bias for each filter. -/
structure Kernel (α : Type) (z : ConvSizes) where
  weight : Tensor α z.kernelDims
  bias : Option (Tensor α [z.filters])

namespace Kernel

variable {α : Type} {z : ConvSizes}

/-- The weights of one tap: by channel and filter. -/
def tap (k : Kernel α z) (i : Fin z.grid.rows.kernel) (j : Fin z.grid.columns.kernel) :
    Tensor α [z.channels, z.filters] :=
  (Tensor.row (s := [z.grid.columns.kernel, z.channels, z.filters]) k.weight i).row j

def zeroLike [Zero α] (k : Kernel α z) : Kernel α z := ⟨Tensor.zeros _, k.bias.map fun _ => Tensor.zeros _⟩

def add [Add α] (a b : Kernel α z) : Kernel α z := ⟨a.weight.add b.weight, addOptions a.bias b.bias⟩

/-- The sum of gradients. -/
def sum [Zero α] [Add α] (k : Kernel α z) {lead : Dims} (gradients : Tensor (Kernel α z) lead) : Kernel α z :=
  gradients.foldl add k.zeroLike

instance : Weights (Kernel α z) α where
  named k := ("kernel", ⟨z.kernelDims, k.weight⟩) :: namedOption "bias" k.bias
  change f k := ⟨f "kernel" k.weight, k.bias.map fun b => f "bias" b⟩

/-- Fresh weights and a bias of zeros. -/
def draw [Scalar α] (scheme : Initializer) (useBias : Bool) (z : ConvSizes) : Draw (Kernel α z) := do
  let field := z.grid.rows.kernel * z.grid.columns.kernel
  let weight ← scheme.weights z.kernelDims (.int (field * z.channels)) (.int (field * z.filters))
  return ⟨weight, if useBias then some (Tensor.zeros [z.filters]) else none⟩

/-! ## One image -/

variable [Zero α] [Add α] [Mul α] {h w : Nat}

/-- The convolved image: for every window the sum over its taps of pixel times weights, and the bias. -/
def convolve (k : Kernel α z) (image : Tensor α (z.imageDims h w)) : Tensor α (z.mapDims h w) :=
  ofPixels fun y x =>
    let plain : Tensor α [z.filters] := Tensor.ofEntries fun f =>
      Scalar.sum z.grid.rows.kernel fun i => Scalar.sum z.grid.columns.kernel fun j =>
        let read := z.grid.tapped image y x i j
        Scalar.sum z.channels fun c => read.entry c * ((k.tap i j).row c).entry f
    match k.bias with
    | some b => plain.add b
    | none => plain

/-- The gradient of the image, from the gradient of the convolved image. -/
def backward (k : Kernel α z) (cotangent : Tensor α (z.mapDims h w)) : Tensor α (z.imageDims h w) :=
  ofPixels fun r q => Tensor.ofEntries fun c =>
    Scalar.sum z.grid.rows.kernel fun i => Scalar.sum z.grid.columns.kernel fun j =>
      match z.grid.window? r q i j with
      | some (y, x) => (pixel cotangent y x).dot ((k.tap i j).row c)
      | none => 0

/-- The gradient of the weights, from the gradient of the convolved image and the image. -/
def gradient (k : Kernel α z) (cotangent : Tensor α (z.mapDims h w)) (image : Tensor α (z.imageDims h w)) :
    Kernel α z where
  weight := Tensor.ofFn fun i => Tensor.ofFn fun j => Tensor.ofMatrix fun c f =>
    Scalar.sum (z.grid.outHeight h) fun y => Scalar.sum (z.grid.outWidth w) fun x =>
      (z.grid.tapped image y x i j).entry c * (pixel cotangent y x).entry f
  bias := k.bias.map fun _ => Tensor.ofEntries fun f =>
    Scalar.sum (z.grid.outHeight h) fun y => Scalar.sum (z.grid.outWidth w) fun x => (pixel cotangent y x).entry f

end Kernel

/-- A convolution and the activation after it. -/
structure Conv2D (α : Type) (z : ConvSizes) where
  activation : Activation
  kernel : Kernel α z

namespace Conv2D

variable {α : Type} [Scalar α] {z : ConvSizes} {h w : Nat}

/-- An image before and after the convolution. -/
structure Trace (α : Type) (z : ConvSizes) (h w : Nat) where
  input : Tensor α (z.imageDims h w)
  convolved : Tensor α (z.mapDims h w)

/-- What is left of a batch of images. -/
structure BatchTrace (α : Type) (z : ConvSizes) where
  height : Nat
  width : Nat
  images : AnyTensor (Trace α z height width)

def trace (l : Conv2D α z) (image : Tensor α (z.imageDims h w)) : Trace α z h w := ⟨image, l.kernel.convolve image⟩

def output (l : Conv2D α z) (t : Trace α z h w) : Tensor α (z.mapDims h w) :=
  ofPixels fun y x => l.activation.onRow (pixel t.convolved y x)

/-- The gradient before the activation. -/
def backwardActivation (l : Conv2D α z) (t : Trace α z h w) (cotangent : Tensor α (z.mapDims h w)) :
    Tensor α (z.mapDims h w) :=
  zipPixels l.activation.backwardOnRow cotangent t.convolved

/-- The gradient of an image. -/
def backward (l : Conv2D α z) (t : Trace α z h w) (cotangent : Tensor α (z.mapDims h w)) :
    Tensor α (z.imageDims h w) :=
  l.kernel.backward (l.backwardActivation t cotangent)

/-- The gradient of the weights from an image. -/
def gradient (l : Conv2D α z) (t : Trace α z h w) (cotangent : Tensor α (z.mapDims h w)) : Kernel α z :=
  l.kernel.gradient (l.backwardActivation t cotangent) t.input

/-! ## Batches -/

/-- A batch of images through the layer, and what it leaves. -/
def forwardBatch (l : Conv2D α z) (x : AnyTensor α) : Except RunError (AnyTensor α × BatchTrace α z) :=
  if x.lastAxis = z.channels then
    match x.dims with
    | [_, h, w, _] => do
      let images ← RunError.fit (x.blocks? (z.imageDims h w))
      if z.grid.fits h w then
        let traces := images.map fun image => l.trace image
        return ((traces.map fun t => l.output t).join, ⟨h, w, traces⟩)
      else .error .mismatch
    | _ => .error .mismatch
  else .error (.channels (.int z.channels) x.lastAxis)

/-- The gradient of the images and the sum of the gradients of the weights, from a gradient for every feature map. -/
def backwardMaps (l : Conv2D α z) (t : BatchTrace α z)
    (maps : AnyTensor (Tensor α (z.mapDims t.height t.width))) : Option (AnyTensor α × NamedTensors α) := do
  guard (z.grid.returns (z.grid.outHeight t.height) (z.grid.outWidth t.width))
  let pairs ← t.images.zipWith? Prod.mk maps
  let images := pairs.map fun (t, g) => l.backward t g
  let gradients := pairs.map fun (t, g) => l.gradient t g
  return (images.join, Weights.named (l.kernel.sum gradients.value))

/-- The same from a gradient before the activation that has axes of its own.  For the weights it is repeated along
images, rows and columns, but not along filters; for the images it ends where it ends, and is shared by all filters, or
shares the only one there is. -/
def backwardUneven (l : Conv2D α z) (t : BatchTrace α z) (cotangent : AnyTensor α) :
    Option (AnyTensor α × NamedTensors α) :=
  match cotangent.dims with
  | [_, h, w, f] => do
    guard (z.grid.returns h w)
    let lead := t.images.dims
    let sizes : ConvSizes := { z with filters := f }
    let repeated ← cotangent.spreadFamily? lead (sizes.mapDims t.height t.width)
    let shared : ConvSizes := { z with filters := if z.filters = 1 then f else z.filters }
    let short ← cotangent.spreadFamily? lead [h, w, shared.filters]
    let kernel : Kernel α shared := ⟨← l.kernel.weight.stretch? shared.kernelDims, none⟩
    let plain : Kernel α sizes := ⟨Tensor.zeros _, none⟩
    let gradients ← t.images.zipWith? (fun t g => plain.gradient g t.input) repeated
    let images ← t.images.zipWith?
      (fun _ g => kernel.backward (h := t.height) (w := t.width) (longer g)) short
    let bias := l.kernel.bias.map fun _ => ("bias", cotangent.sumLeading 3)
    return (images.join, ("kernel", ⟨sizes.kernelDims, (plain.sum gradients.value).weight⟩) :: bias.toList)
  | _ => none

/-- The gradient of the images and the gradients of the weights. -/
def backwardBatch (l : Conv2D α z) (t : BatchTrace α z) (cotangent : AnyTensor α) :
    Except RunError (AnyTensor α × NamedTensors α) := RunError.fit do
  let outer := z.mapDims t.height t.width
  if cotangent.dims = t.images.dims ++ outer then l.backwardMaps t (← cotangent.spreadFamily? t.images.dims outer)
  else l.backwardUneven t (← l.activation.backwardOnTensor? cotangent (t.images.map (·.convolved)).join)

/-- A fresh layer. -/
def draw (activation : Activation) (scheme : Initializer) (useBias : Bool) (z : ConvSizes) : Draw (Conv2D α z) := do
  return ⟨activation, ← Kernel.draw scheme useBias z⟩

end Conv2D

end LayerStack
