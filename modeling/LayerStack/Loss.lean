import LayerStack.Tensor.Any

/-!
# LayerStack.Loss

What a model's predictions cost against their targets, and the gradient of that cost.

Losses take predictions as they leave the model: where a logarithm is taken, they are probabilities, and are first moved
away from zero and one.
-/

namespace LayerStack

/-- The loss a model is trained on. -/
inductive Loss where
  | categoricalCrossentropy | meanSquaredError | binaryCrossentropy
deriving Repr, DecidableEq, Inhabited

namespace Loss

def all : List Loss := [.categoricalCrossentropy, .meanSquaredError, .binaryCrossentropy]

def name : Loss → String
  | .categoricalCrossentropy => "categoricalCrossentropy"
  | .meanSquaredError => "meanSquaredError"
  | .binaryCrossentropy => "binaryCrossentropy"

def ofName? (name : String) : Option Loss := all.find? (·.name == name)

variable {α : Type} [Scalar α]

open Elementary

/-- How far probabilities are kept from zero and one. -/
def margin : α := Scalar.decimal 1 7

/-- A probability kept away from zero and one. -/
def clip (p : α) : α := Scalar.clamp margin (1 - margin) p

/-- The mean of all entries.  The sum starts from a zero that is a real number, so whole numbers do not wrap. -/
def mean (x : AnyTensor α) : α := x.foldl (· + ·) ((0 : Nat) : α) / (x.size : α)

/-- The number of rows along the last axis. -/
def rowCount (x : AnyTensor α) : Nat := Dims.volume x.dims.dropLast

/-- The loss of predictions against targets. -/
def value? (loss : Loss) (predictions targets : AnyTensor α) : Option α :=
  match loss with
  | .categoricalCrossentropy =>
    (predictions.zipWith? (fun p t => t * log (clip p)) targets).map fun x =>
      -(x.foldl (· + ·) 0) / (rowCount x : α)
  | .meanSquaredError => (predictions.zipWith? (fun p t => Scalar.square (p - t)) targets).map mean
  | .binaryCrossentropy =>
    (predictions.zipWith? (fun p t => t * log (clip p) + (1 - t) * log (1 - clip p)) targets).map fun x => -mean x

/-- The gradient of a loss at the predictions, on the axes that those and the targets stretch to. -/
def backward? (loss : Loss) (predictions targets : AnyTensor α) : Option (AnyTensor α) :=
  let size : α := (predictions.size : α)
  match loss with
  | .categoricalCrossentropy =>
    let rows : α := (rowCount predictions : α)
    predictions.zipWith? (fun p t => -t / clip p / rows) targets
  | .meanSquaredError => predictions.zipWith? (fun p t => ((2 : Nat) : α) * (p - t) / size) targets
  | .binaryCrossentropy =>
    predictions.zipWith? (fun p t => (clip p - t) / (clip p * (1 - clip p)) / size) targets

end Loss

/-! ## Accuracy -/

namespace Tensor

variable {α : Type} [Scalar α] {n : Nat}

/-- The place of the first largest number of a row. -/
def argmax (x : Tensor α [n]) : Nat :=
  (Fin.foldl n (fun (best : Option (Nat × α)) i =>
    match best with
    | some (j, b) => if Scalar.leads (x.entry i) b then some (i.val, x.entry i) else some (j, b)
    | none => some (i.val, x.entry i)) none).elim 0 (·.1)

end Tensor

/-- The share of correct predictions: of a single number, on the side of one half that its target is on; of a row, with
its first largest number where its target has it. -/
def accuracy? {α : Type} [Scalar α] (predictions targets : AnyTensor α) : Option α :=
  if predictions.lastAxis = 1 then
    (predictions.zipWith? (fun p t : α => hit ((Scalar.half < p : Bool) == (Scalar.half < t : Bool))) targets).map
      Loss.mean
  else
    ((predictions.foldLast Tensor.argmax).zipWith? (fun p t => hit (p == t)) (targets.foldLast Tensor.argmax)).map
      Loss.mean
where
  hit : Bool → α := Scalar.indicator

end LayerStack
