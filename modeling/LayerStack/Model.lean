import LayerStack.Operator
import LayerStack.Shape.Plan

/-!
# LayerStack.Model

Models: a chain of operators, one for every layer of a plan.

A batch goes through the operators in order, a gradient through them backwards.  Where a pass fails, the operators
before the failing one have run and those after it have not.  A model that has been disposed of answers nothing any
more.
-/

namespace LayerStack

variable {α : Type}

/-! ## Chains -/

namespace Chain

variable [Scalar α]

/-- A batch forward through all operators, first to last. -/
def forward (training : Bool) :
    List (Operator α) → AnyTensor α → Draw (Except RunError (AnyTensor α) × List (Operator α))
  | [], x => pure (.ok x, [])
  | o :: os, x => do
    let (result, o) ← o.forward training x
    match result with
    | .error e => return (.error e, o :: os)
    | .ok y => do
      let (result, os) ← forward training os y
      return (result, o :: os)

/-- A gradient back through all operators, last to first. -/
def backward : List (Operator α) → AnyTensor α → Except RunError (AnyTensor α) × List (Operator α)
  | [], g => (.ok g, [])
  | o :: os, g =>
    match backward os g with
    | (.error e, os) => (.error e, o :: os)
    | (.ok g, os) =>
      let (result, o) := o.backward g
      (result, o :: os)

end Chain

/-! ## Models -/

/-- A plan and the operators built for its layers. -/
structure Model (α : Type) where
  plan : ShapePlan
  operators : List (Operator α)
  disposed : Bool := false

namespace Model

/-- What is asked of a model that has not been disposed of. -/
def live (m : Model α) : Except RunError (Model α) := if m.disposed then .error .disposed else .ok m

def dispose (m : Model α) : Model α := { m with disposed := true }

/-! ### Passes -/

/-- Adds an axis of length one at the end. -/
def appendAxis (x : AnyTensor α) : AnyTensor α :=
  AnyTensor.join (s := [1]) (x.map fun a => Tensor.ofEntries fun _ => a)

/-- A batch in the shape of the first operator: as it is, or with a channel axis where one was added to the declared
shape. -/
def prepare (plan : ShapePlan) (x : AnyTensor α) : Except RunError (AnyTensor α) :=
  let sample : Shape := (x.dims.drop 1).map Int.ofNat
  if sample = plan.input then .ok x
  else if plan.promoted && sample == plan.declared then .ok (appendAxis x)
  else .error (.batchShape plan.input x.dims)

section Passes

variable [Scalar α]

/-- A batch forward. -/
def forward (training : Bool) (x : AnyTensor α) (m : Model α) : Draw (Except RunError (AnyTensor α) × Model α) :=
  match m.live.bind fun m => prepare m.plan x with
  | .error e => pure (.error e, m)
  | .ok x => do
    let (result, operators) ← Chain.forward training m.operators x
    return (result, { m with operators })

/-- A batch forward outside of training. -/
def predict (x : AnyTensor α) (m : Model α) : Draw (Except RunError (AnyTensor α) × Model α) := forward false x m

/-- A gradient back through the last pass. -/
def backward (g : AnyTensor α) (m : Model α) : Except RunError (AnyTensor α) × Model α :=
  match m.live with
  | .error e => (.error e, m)
  | .ok _ =>
    let (result, operators) := Chain.backward m.operators g
    (result, { m with operators })

end Passes

/-! ### Tensors -/

/-- What stands before the names of a layer's tensors. -/
def tensorPrefix (layer : ResolvedLayer) : String := s!"layer_{layer.index}"

/-- Named things of all operators, under the names of their layers. -/
def collect {β : Type} (of : Operator α → List (String × β)) (m : Model α) : List (String × β) :=
  (m.plan.layers.zip m.operators).flatMap fun (layer, o) => withPrefix (tensorPrefix layer) (of o)

/-- The weights that training moves. -/
def parameters (m : Model α) : Except RunError (NamedTensors α) := (collect Operator.parameters) <$> m.live

/-- The gradients of the last way back. -/
def gradients (m : Model α) : Except RunError (List (String × Option (AnyTensor α))) :=
  (collect Operator.gradients) <$> m.live

/-- Changes the parameters by name. -/
def change (f : TensorChange α) (m : Model α) : Model α :=
  { m with operators := (m.plan.layers.zip m.operators).map fun (layer, o) => o.change (f.under (tensorPrefix layer)) }

/-- Gives parameters new values. -/
def setParameters (values : NamedTensors α) (m : Model α) : Model α := m.change (TensorChange.ofValues values)

/-- The axes of all tensors the model owns. -/
def owned (m : Model α) : List Dims :=
  m.operators.flatMap fun o => (o.parameters ++ o.frozen ++ o.constants).map fun (_, x) => x.dims

/-! ### Counts -/

def trainable (m : Model α) : Nat := m.operators.foldr (fun o n => o.trainableCount + n) 0

def total (m : Model α) : Nat := m.operators.foldr (fun o n => o.totalCount + n) 0

/-- The number of entries that training moves, and of all weights. -/
def counts (m : Model α) : Except RunError (Nat × Nat) := (fun m => (m.trainable, m.total)) <$> m.live

/-- The shape of one sample of the output. -/
def outputShape (m : Model α) : Except RunError Shape := (·.plan.output) <$> m.live

end Model

end LayerStack
