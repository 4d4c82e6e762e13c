import LayerStack.Session

/-!
# LayerStack.Training.Head

The classification head of a design.

A design that is trained on classes ends in a dense or output layer with one unit for every class.  Where it does not, a
softmax layer is added behind it, and before that a flatten layer if its samples have more than one axis.
-/

namespace LayerStack

namespace Head

/-- Does a record have one unit for every class? -/
def isHead (classes : Value) (record : LayerRecord) : Except AnalysisFault Bool :=
  match LayerType.ofTag? record.type with
  | some t =>
    if t = .dense ∨ t = .output then do
      match (← t.sanitize "units" (record.params.value "units")).same? classes with
      | some same => return same
      | none => throw .tooLarge
    else .ok false
  | none => .ok false

/-- The flatten layer before a head. -/
def flatten : LayerRecord := { id := some "flatten-auto", type := LayerType.flatten.tag, name := "Flatten" }

/-- A head for some classes, whose number is kept as it is given. -/
def output (classes : Value) : LayerRecord where
  id := some "output-auto"
  type := LayerType.dense.tag
  name := "Output"
  params := .ofNamed [
    ("units", classes), ("activation", .text "softmax"), ("useBias", .bool true),
    ("kernelInitializer", .text "glorotUniform")]

/-- A design with a head behind samples of a rank. -/
def append (records : List LayerRecord) (rank : Nat) (classes : Value) : List LayerRecord :=
  records ++ (if 1 < rank then [flatten] else []) ++ [output classes]

/-- Does the last record have one unit for every class? -/
def isThere (classes : Value) (records : List LayerRecord) : Except AnalysisFault Bool :=
  records.getLast?.elim (.ok false) (isHead classes)

/-- A design with a head behind it, which has to have a plan of its own. -/
def add {α : Type} (records : List LayerRecord) (classes : Value) :
    StateM (Session α) (Except Failure (List LayerRecord)) := do
  match ← Session.report (.headAdded classes) with
  | .error e => return .error (.run e)
  | .ok () =>
    let plan ← Session.plan (.ok records)
    return (plan.map fun plan => append records plan.output.length classes).mapError .analysis

/-- A design that ends in a head for some classes: its own, or one that is added. -/
def ensure {α : Type} (design : Session.Design) (classes : Value) :
    StateM (Session α) (Except Failure (List LayerRecord)) :=
  match design with
  | .error e => pure (.error (.analysis (.design e)))
  | .ok records =>
    if records.length < 2 then pure (.error (.analysis (.design .noHead)))
    else
      match isThere classes records with
      | .error e => pure (.error (.analysis (.fault e)))
      | .ok true => pure (.ok records)
      | .ok false => add records classes

end Head

end LayerStack
