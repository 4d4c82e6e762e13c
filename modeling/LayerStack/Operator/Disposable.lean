import LayerStack.Operator.Settings

/-!
# LayerStack.Operator.Disposable

Operators on their own, which can be disposed of.

Disposing of an operator drops all its tensors, the mask of a dropout among them; the names of weights stay.  What fails
is told with the settings that the operator was made from.
-/

namespace LayerStack

/-- An operator, the settings it was made from, and whether it has been disposed of. -/
structure DisposableOperator (α : Type) where
  operator : Operator α
  settings : Settings := ⟨[]⟩
  disposed : Bool := false

namespace DisposableOperator

variable {α : Type}

def dispose (o : DisposableOperator α) : DisposableOperator α :=
  { o with operator := o.operator.unmasked, disposed := true }

/-- Tensors that are there as long as the operator has not been disposed of. -/
def live (o : DisposableOperator α) (tensors : Operator α → NamedTensors α) : List (String × Option (AnyTensor α)) :=
  (tensors o.operator).map fun (name, x) => (name, if o.disposed then none else some x)

def parameters (o : DisposableOperator α) : List (String × Option (AnyTensor α)) := o.live Operator.parameters

def frozen (o : DisposableOperator α) : List (String × Option (AnyTensor α)) := o.live Operator.frozen

def constants (o : DisposableOperator α) : List (String × Option (AnyTensor α)) := o.live Operator.constants

def gradients (o : DisposableOperator α) : List (String × Option (AnyTensor α)) :=
  o.operator.gradients.map fun (name, g) => (name, if o.disposed then none else g)

/-- The attention weights of the last forward pass. -/
def attention (o : DisposableOperator α) : Option (AnyTensor α) := if o.disposed then none else o.operator.attention?

/-- An outcome, told with the settings. -/
def told {β : Type} (o : DisposableOperator α) (r : Except RunError β) : Except RunError β := r.mapError o.settings.told

/-- The rows that a position table has for a length; none of another operator. -/
def encoding? (o : DisposableOperator α) (length : Value) : Option (Except RunError (AnyTensor α)) :=
  match o.operator with
  | .positions c => some (o.told (c.layer.rows? length))
  | _ => none

variable [Scalar α]

/-- A batch forward. -/
def forward (o : DisposableOperator α) (training : Bool) (x : AnyTensor α) :
    Draw (Except RunError (AnyTensor α) × DisposableOperator α) := do
  let (r, operator) ← o.operator.forward training x
  return (o.told r, { o with operator })

/-- A gradient back through the last forward pass. -/
def backward (o : DisposableOperator α) (cotangent : AnyTensor α) :
    Except RunError (AnyTensor α) × DisposableOperator α :=
  let (r, operator) := o.operator.backward cotangent
  (o.told r, { o with operator })

end DisposableOperator

end LayerStack
