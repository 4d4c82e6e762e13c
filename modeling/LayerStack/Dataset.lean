import LayerStack.Random
import LayerStack.RunError
import LayerStack.Tensor.Samples
import LayerStack.Value.Share

/-!
# LayerStack.Dataset

What models are trained and tested on.

A dataset describes itself and holds the raw tensors of two splits.  Loading gives every input the shape of a sample and
every label a row, shuffles the training split, inputs and labels alike, and keeps the first part of each split.
-/

namespace LayerStack

variable {α : Type}

/-! ## Labels -/

namespace Label

/-- The class a label names, in a 64-bit word; what names none is read as the least word. -/
def classOf [Scalar α] (label : α) : Int :=
  match Scalar.truncate? label with
  | some n => Word.narrow n
  | none => -(Word.half : Int)

/-- The row of a class: one at its place, zero elsewhere. -/
def oneHot [One α] [NatCast α] (classes : Nat) (place : Int) : Tensor α [classes] :=
  Tensor.ofEntries fun j => Scalar.indicator (place == (j.val : Int))

/-- The rows of labels, in row-major order. -/
def rows [Scalar α] (labels : AnyTensor α) (classes : Value) : Except RunError (Samples α) :=
  let places := labels.toArray.map classOf
  match classes.quantity? with
  | none => .error .illTyped
  | some count =>
    if places.any fun k => k < 0 || Number.le count (.int k) then .error (.labels classes)
    else
      match count with
      | .int n => if n < 0 then .error .mismatch else .ok ⟨[n.toNat], places.map (oneHot n.toNat)⟩
      | _ => .error .illTyped

end Label

/-! ## Shuffling -/

namespace Samples

/-- The samples along the first axis, which has to be there. -/
def ofTensor (x : AnyTensor α) : Except RunError (Samples α) :=
  match ofTensor? x with
  | some samples => .ok samples
  | none => .error .illTyped

/-- The places of `n` samples in random order: from a stream of its own for a seed, else from the current one. -/
def order (seed : Option Int) (n : Nat) : Draw (List Nat) :=
  match seed with
  | some seed => pure (Draw.permutation n (Stream.ofSeed seed)).1.toList
  | none => Array.toList <$> Draw.permutation n

/-- Puts samples of equal number into one shared random order. -/
def shuffle (seed : Option Int) (all : List (Samples α)) : Draw (Except RunError (List (Samples α))) :=
  match all with
  | [] => pure (.ok [])
  | first :: _ =>
    if all.all (·.length == first.length) then do
      let order ← order seed first.length
      return .ok (all.map (·.pick order))
    else pure (.error .unevenShuffle)

end Samples

/-! ## Labelled samples -/

/-- Inputs with their labels. -/
structure LabelledSamples (α : Type) where
  inputs : Samples α
  labels : Samples α

namespace LabelledSamples

/-- Tensors as inputs and labels, each along its first axis. -/
def ofTensors (inputs labels : AnyTensor α) : Except RunError (LabelledSamples α) := do
  return ⟨← Samples.ofTensor inputs, ← Samples.ofTensor labels⟩

/-- Are there as many labels as inputs? -/
def isPaired (x : LabelledSamples α) : Bool := x.inputs.length == x.labels.length

def take (x : LabelledSamples α) (n : Nat) : LabelledSamples α := ⟨x.inputs.take n, x.labels.take n⟩

def drop (x : LabelledSamples α) (n : Nat) : LabelledSamples α := ⟨x.inputs.drop n, x.labels.drop n⟩

def pick (x : LabelledSamples α) (indices : List Nat) : LabelledSamples α :=
  ⟨x.inputs.pick indices, x.labels.pick indices⟩

/-- Puts inputs and labels into one random order. -/
def shuffle (seed : Option Int) (x : LabelledSamples α) : Draw (Except RunError (LabelledSamples α)) :=
  if x.isPaired then do
    return .ok (x.pick (← Samples.order seed x.inputs.length))
  else pure (.error .unevenShuffle)

/-- How many of `n` samples a ratio keeps: at least one of any, and the nearest number to the ratio's share. -/
def kept (n : Nat) (ratio : Value) : Except RunError Nat :=
  match ratio.quantity? with
  | none => .error .illTyped
  | some r =>
    if Number.lt (.int 0) r && Number.le r (.int 1) then
      .ok (if n = 0 then 0 else max 1 ((r.share n).nearest?.getD 0).toNat)
    else .error (.sampleRatio ratio)

/-- The first samples, as many as a ratio keeps. -/
def keep (x : LabelledSamples α) (ratio : Value) : Except RunError (LabelledSamples α) :=
  x.take <$> kept x.inputs.length ratio

end LabelledSamples

/-! ## Datasets -/

/-- What a dataset says of itself.  What it is given is kept in the form it was given in. -/
structure DatasetMetadata where
  name : Value
  description : Value := .text ""
  /-- The shape of a sample without channels. -/
  inputShape : List Int
  /-- The number of channels, zero for samples that have none. -/
  channels : Value := .int 0
  classes : Value
  trainSize : Value
  testSize : Value
  classNames : Value := .row []
deriving Repr

/-- Is there an axis for a number of channels? -/
def hasChannels (channels : Value) : Bool := channels.quantity?.any (Number.lt (.int 0))

/-- The shape of a sample as it is fed to a model. -/
def DatasetMetadata.sampleShape (m : DatasetMetadata) : List Value :=
  m.inputShape.map .int ++ if hasChannels m.channels then [m.channels] else []

/-- The raw tensors of a dataset. -/
structure DatasetTensors (α : Type) where
  trainInputs : AnyTensor α
  trainLabels : AnyTensor α
  testInputs : AnyTensor α
  testLabels : AnyTensor α

/-- What a loaded dataset holds. -/
structure LoadedData (α : Type) where
  train : LabelledSamples α
  test : LabelledSamples α

/-- How a dataset is loaded. -/
structure LoadOptions where
  shuffle : Value := .bool true
  seed : Option Int := none
  trainRatio : Value := .int 1
  testRatio : Value := .int 1
deriving Repr

structure Dataset (α : Type) where
  metadata : DatasetMetadata
  tensors : DatasetTensors α

/-- What can be said of tensors to make a dataset of them. -/
structure DatasetOptions where
  /-- Counted from the labels where it is not given. -/
  classes : Option Value := none
  channels : Value := .int 0
  description : Value := .text ""
  /-- Any elements, which make a row. -/
  classNames : Value := .row []
deriving Repr

namespace DatasetTensors

variable [Scalar α]

/-- The largest entry. -/
def greatest? (x : AnyTensor α) : Option α :=
  x.foldl (fun best a => some (best.elim a (Scalar.maximum · a))) none

/-- The number of classes: the length of the labels' rows, or one more than the largest label. -/
def countClasses (d : DatasetTensors α) : Except RunError Int :=
  if 1 < d.trainLabels.rank then .ok d.trainLabels.lastAxis
  else do
    let train ← RunError.fit (greatest? d.trainLabels)
    let test ← RunError.fit (greatest? d.testLabels)
    let last := if train < test then test else train
    match Scalar.truncate? last with
    | some n => return n + 1
    | none => .error (if last ≤ last then .tooLarge else .mismatch)

end DatasetTensors

namespace Dataset

variable [Scalar α]

/-- A dataset of tensors. -/
def ofTensors (name : Value) (tensors : DatasetTensors α) (o : DatasetOptions) : Except RunError (Dataset α) := do
  let classes ← o.classes.elim (.int <$> tensors.countClasses) .ok
  match tensors.trainInputs.dims, tensors.testInputs.dims with
  | trainSize :: shape, testSize :: _ =>
    let shape := shape.map Int.ofNat
    let inputShape := if hasChannels o.channels then shape.dropLast else shape
    let metadata : DatasetMetadata := {
      name, description := o.description, inputShape, channels := o.channels, classes, trainSize := .int trainSize
      testSize := .int testSize, classNames := .row ((o.classNames.elements?).getD []) }
    return ⟨metadata, tensors⟩
  | _, _ => .error .illTyped

/-- The axes of a shape for samples of a number of entries.  A length below zero, of which there may be one, is as
large as it has to be. -/
def axesFor? (entries : Nat) (shape : List Int) : Option Dims :=
  let known := Dims.volume ((shape.filter (0 ≤ ·)).map Int.toNat)
  match shape.filter (· < 0) with
  | [] => some (shape.map Int.toNat)
  | [_] =>
    if 0 < known ∧ entries % known = 0 then some (shape.map fun n => if n < 0 then entries / known else n.toNat)
    else none
  | _ => none

/-- Inputs in the shape of samples. -/
def reshape (m : DatasetMetadata) (inputs : Samples α) : Except RunError (Samples α) :=
  RunError.fit do inputs.reshape? (← axesFor? (Dims.volume inputs.sample) (← m.sampleShape.mapM Value.whole?))

/-- Labels as rows; those that are rows already stay as they are. -/
def labelRows (m : DatasetMetadata) (labels : AnyTensor α) : Except RunError (Samples α) :=
  if labels.rank = 1 then Label.rows labels m.classes else Samples.ofTensor labels

/-- Inputs in the shape of samples, and labels as rows. -/
def prepare (m : DatasetMetadata) (inputs labels : AnyTensor α) : Except RunError (LabelledSamples α) := do
  let inputs ← reshape m (← Samples.ofTensor inputs)
  return ⟨inputs, ← labelRows m labels⟩

/-- Loads both splits. -/
def load (d : Dataset α) (o : LoadOptions) : Draw (Except RunError (LoadedData α)) :=
  match prepare d.metadata d.tensors.trainInputs d.tensors.trainLabels,
      prepare d.metadata d.tensors.testInputs d.tensors.testLabels with
  | .error e, _ | .ok _, .error e => pure (.error e)
  | .ok train, .ok test => do
    let train ← if o.shuffle.isOn then train.shuffle o.seed else pure (.ok train)
    return do
      let train ← (← train).keep o.trainRatio
      let test ← test.keep o.testRatio
      return ⟨train, test⟩

end Dataset

/-! ## By name -/

/-- Datasets under names.  One that cannot be made keeps its name, and is missed only when it is asked for. -/
abbrev DatasetRegistry (α : Type) := List (String × Except RunError (Dataset α))

namespace DatasetRegistry

/-- Puts a dataset under a name, in place of the one that was there. -/
def register (r : DatasetRegistry α) (name : String) (d : Except RunError (Dataset α)) : DatasetRegistry α :=
  (name, d) :: r.filter (·.1 != name)

/-- The names, in order. -/
def names (r : DatasetRegistry α) : List String := (r.map (·.1)).mergeSort fun a b => !(b < a : Bool)

def get (r : DatasetRegistry α) (name : String) : Except RunError (Dataset α) :=
  match r.lookup name with
  | some d => d
  | none => .error (.unknownDataset name)

end DatasetRegistry

end LayerStack
