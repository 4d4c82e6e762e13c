import LayerStack.Layer.Choice
import LayerStack.Random
import LayerStack.Value.Sum

/-!
# LayerStack.Layer.Initializer

The first weights of a layer.

A scheme draws from a range or a spread that depends on how many numbers feed an output (fan-in) and how many outputs a
number feeds (fan-out).  What the fans come to must have a double.  A truncated spread draws anew whatever is more than
two units from zero.
-/

namespace LayerStack.Initializer

variable {α : Type} [Scalar α]

open Elementary Scalar

/-- A tensor drawn evenly from `-limit` up to `limit`. -/
def uniform (limit : α) (s : Dims) : Draw (Tensor α s) := Draw.tensor (Draw.uniform (-limit) limit) s

/-- Is a number at most two units from zero? -/
def withinTwo (x : α) : Bool := ¬ ((2 : Nat) : α) < Scalar.abs x

/-- A tensor of truncated draws from any source, scaled. -/
def truncated {σ : Type} (draw : StateM σ α) (deviation : α) (s : Dims) : StateM σ (Tensor α s) := do
  let x ← Draw.tensorInside withinTwo draw s
  return x.map (· * deviation)

/-- The range and the deviation of the schemes that take none from the fans. -/
def plain : α := Scalar.decimal 5 2

/-- What the fans come to in a scheme, if that has a double; one, where the scheme takes nothing from them. -/
def fan? (scheme : Initializer) (fanIn fanOut : Value) : Option Number :=
  let fan := match scheme with
    | .glorotUniform | .glorotNormal => fanIn.sum? fanOut
    | .heUniform | .heNormal | .leCunUniform | .leCunNormal => fanIn.quantity?
    | .zeros | .ones | .randomUniform | .randomNormal | .truncatedNormal => some (.int 1)
  fan.filter Number.hasDouble

/-- The first weights of a scheme. -/
def weights (scheme : Initializer) (s : Dims) (fanIn fanOut : Value) : Draw (Tensor α s) :=
  let fan : α := Scalar.ofNumber ((scheme.fan? fanIn fanOut).getD (.int 1))
  let root (n : Nat) : α := sqrt ((n : α) / fan)
  match scheme with
  | .glorotUniform | .heUniform => uniform (root 6) s
  | .glorotNormal | .heNormal => truncated Draw.spread (root 2) s
  | .leCunUniform => uniform (root 3) s
  | .leCunNormal => truncated Draw.spread (root 1) s
  | .zeros => pure (Tensor.fill realZero s)
  | .ones => pure (Tensor.fill 1 s)
  | .randomUniform => uniform plain s
  | .randomNormal => do
    let x ← Draw.tensor Draw.spread s
    return x.map (· * plain)
  | .truncatedNormal => truncated Draw.spread plain s

end LayerStack.Initializer
