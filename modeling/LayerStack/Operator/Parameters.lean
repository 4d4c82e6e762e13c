import LayerStack.Random
import LayerStack.RunError

/-!
# LayerStack.Operator.Parameters

Named tensors, and what a layer keeps between two passes.

The weights of a layer and the gradients of those weights are values of one type, so a gradient has a tensor for every
weight and of the same shape.  A `Cell` is a layer together with what its last forward pass left for the way back and
with the gradients of the last way back, by name.
-/

namespace LayerStack

/-- Tensors under names, in order. -/
abbrev NamedTensors (α : Type) := List (String × AnyTensor α)

/-- A change of tensors by name that keeps their axes. -/
abbrev TensorChange (α : Type) := String → {s : Dims} → Tensor α s → Tensor α s

/-- The same things under longer names. -/
def withPrefix {β : Type} (first : String) (named : List (String × β)) : List (String × β) :=
  named.map fun (name, x) => (first ++ "_" ++ name, x)

/-- The same names, with the new tensor of each that has one. -/
def NamedTensors.update {α : Type} (named new : NamedTensors α) : NamedTensors α :=
  named.map fun (name, x) => (name, (new.lookup name).getD x)

/-- Values for tensors of the same names and axes, drawn in order. -/
def drawnLike {α : Type} [Scalar α] (lo hi : α) (named : NamedTensors α) : Draw (NamedTensors α) :=
  named.mapM fun (name, x) => do return (name, ⟨x.dims, ← Draw.tensor (Draw.uniform lo hi) x.dims⟩)

namespace TensorChange

variable {α : Type}

/-- The change of the tensors under longer names. -/
def under (first : String) (change : TensorChange α) : TensorChange α :=
  fun name {_} x => change (first ++ "_" ++ name) x

/-- A value without those of its leading axes, of length one, that go beyond the given axes. -/
def fitted (s : Dims) : (t : Dims) → Tensor α t → AnyTensor α
  | 1 :: t, x => if s.length ≤ t.length then fitted s t (Tensor.row x 0) else ⟨1 :: t, x⟩
  | t, x => ⟨t, x⟩

/-- Replaces the tensors that have a new value, which is repeated to fit them. -/
def ofValues (values : NamedTensors α) : TensorChange α := fun name {s} x =>
  match values.lookup name with
  | some v => ((fitted s v.dims v.value).spread? s).getD x
  | none => x

end TensorChange

/-- What a type of weights has to offer. -/
class Weights (W : Type) (α : outParam Type) where
  named : W → NamedTensors α
  change : TensorChange α → W → W

/-- A layer, what its last forward pass left, and its last gradients. -/
structure Cell (α Layer Trace : Type) where
  layer : Layer
  trace : Option Trace := none
  gradient : Option (NamedTensors α) := none

namespace Cell

variable {α L T β : Type}

/-- The cell after a forward pass; one that fails leaves it as it was. -/
def pass (c : Cell α L T) (result : Except RunError (β × T)) : Except RunError β × Cell α L T :=
  match result with
  | .ok (y, trace) => (.ok y, { c with trace := some trace })
  | .error e => (.error e, c)

/-- The cell after a way back, which starts from what the last forward pass left. -/
def wayBack (c : Cell α L T) (run : T → Except RunError (β × NamedTensors α)) : Except RunError β × Cell α L T :=
  match c.trace with
  | none => (.error .mismatch, c)
  | some trace =>
    match run trace with
    | .ok (y, gradient) => (.ok y, { c with gradient := some gradient })
    | .error e => (.error e, c)

end Cell

/-- A result with the gradients of weights by name. -/
def namedGradient {W α β : Type} [Weights W α] (result : Except RunError (β × W)) :
    Except RunError (β × NamedTensors α) :=
  result.map fun (y, gradient) => (y, Weights.named gradient)

/-- An optional tensor under a name. -/
def namedOption {α : Type} {s : Dims} (name : String) (x : Option (Tensor α s)) : NamedTensors α :=
  match x with
  | some x => [(name, ⟨s, x⟩)]
  | none => []

/-- The sum of two optional tensors where both are there. -/
def addOptions {α : Type} [Add α] {s : Dims} (x y : Option (Tensor α s)) : Option (Tensor α s) :=
  match x, y with
  | some x, some y => some (x.add y)
  | x, _ => x

end LayerStack
