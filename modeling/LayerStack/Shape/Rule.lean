import LayerStack.Layer.Config
import LayerStack.Shape.Window
import LayerStack.Value.Text
import LayerStack.Word

/-!
# LayerStack.Shape.Rule

What each layer makes of the shape before it.

A shape is that of one sample, without the batch axis.  Layers that keep a shape, such as dropout, keep any; the
others ask for a rank, and windows and position tables must fit.
-/

namespace LayerStack

/-- The lengths of the axes of one sample. -/
abbrev Shape := List Int

/-- A shape in square brackets. -/
def Shape.text (shape : Shape) : String := bracketed "[" (shape.map toString) "]"

/-- A shape in round brackets. -/
def Shape.rowText (shape : Shape) : String := LayerStack.rowText (shape.map toString)

/-- Why a layer cannot take a shape. -/
inductive ShapeMismatch where
  | rank (expected : Nat) (description : String) (shape : Shape)
  | window (what : String) (kernel input : Int × Int) (padding : Padding)
  | tooLong (length greatest : Int)
deriving Repr, DecidableEq

def ShapeMismatch.message : ShapeMismatch → String
  | .rank expected description shape =>
    s!"expected a rank-{expected} input {description}, got shape {shape.text}"
  | .window what (kernelHeight, kernelWidth) (height, width) padding =>
    s!"{what} {kernelHeight}x{kernelWidth} does not fit input {height}x{width} with {padding.name} padding"
  | .tooLong length greatest => s!"sequence length {length} exceeds maxLength {greatest}"

namespace Shape

/-- The product of the lengths in doubles, from the first on. -/
def doubleProduct (shape : Shape) : Int :=
  ((shape.foldl (fun x n => x.mul (.ofInt n)) (Binary64.ofInt 1)).toInt?).getD 0

/-- The product of the lengths as it comes out in 64-bit words: wrapped with a sign where every length fits a signed
word, without one where all of them need the last bit, in doubles where only some do, and exact where a length is larger
still. -/
def wordProduct (shape : Shape) : Int :=
  let product := shape.foldl (· * ·) 1
  if shape.all (· < Word.half) then Word.wrapSigned product
  else if shape.any ((Word.count : Int) ≤ ·) then product
  else if shape.all ((Word.half : Int) ≤ ·) then Word.wrap product
  else shape.doubleProduct

/-- The windows of a two-dimensional layer along both axes. -/
def windows (what : String) (kernel strides input : Int × Int) (padding : Padding) :
    Except ShapeMismatch (Int × Int) :=
  let height := windowCount input.1 kernel.1 strides.1 padding
  let width := windowCount input.2 kernel.2 strides.2 padding
  if height < 1 ∨ width < 1 then .error (.window what kernel input padding) else .ok (height, width)

end Shape

namespace LayerConfig

/-- A sequence no longer than a table has rows. -/
def checkLength (length greatest : Int) : Except ShapeMismatch Unit :=
  if greatest < length then .error (.tooLong length greatest) else .ok ()

/-- The shape a layer makes of the shape before it. -/
def outputShape (config : LayerConfig) (shape : Shape) : Except ShapeMismatch Shape :=
  match config with
  | .dense c =>
    match shape with
    | [_] => .ok [c.units]
    | _ => .error (.rank 1 "[features]; add a flatten layer first" shape)
  | .conv2d c =>
    match shape with
    | [h, w, _] => do
      let (h', w') ← Shape.windows "Kernel" c.kernel c.strides (h, w) c.padding
      return [h', w', c.filters]
    | _ => .error (.rank 3 "[height, width, channels]" shape)
  | .maxpool2d c =>
    match shape with
    | [h, w, channels] => do
      let (h', w') ← Shape.windows "Pool window" c.pool c.strides (h, w) c.padding
      return [h', w', channels]
    | _ => .error (.rank 3 "[height, width, channels]" shape)
  | .flatten => .ok [shape.wordProduct]
  | .dropout _ | .layerNorm _ => .ok shape
  | .positionalEncoding maxLength _ =>
    match shape with
    | [length, _] => do
      checkLength length maxLength
      return shape
    | _ => .error (.rank 2 "[sequence, features]" shape)
  | .embedding c =>
    match shape with
    | [length] => do
      checkLength length c.maxLength
      return [length, c.dimension]
    | _ => .error (.rank 1 "[sequence] of token IDs" shape)
  | .multiHeadAttention _ | .transformerBlock _ =>
    match shape with
    | [_, _] => .ok shape
    | _ => .error (.rank 2 "[sequence, features]" shape)
  | .globalAvgPool1d =>
    match shape with
    | [_, features] => .ok [features]
    | _ => .error (.rank 2 "[sequence, features]" shape)

end LayerConfig

end LayerStack
