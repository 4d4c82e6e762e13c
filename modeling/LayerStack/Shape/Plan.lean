import LayerStack.Shape.Rule
import LayerStack.Validation

/-!
# LayerStack.Shape.Plan

The plan of a design: every layer checked, completed with defaults, and given its input and output shape.

A design is first looked at as a whole (it starts with its one input layer, has something after it, and all its tags
are known), then layer by layer, parameters before shapes; the first failure ends the analysis.  Where the first layer
after the input wants channels and the declared shape has two axes, the shape is promoted by a channel axis of one.
-/

namespace LayerStack

/-- A layer with its complete parameters and its shapes. -/
structure ResolvedLayer where
  index : Nat
  record : LayerRecord
  type : LayerType
  params : Entries String Value
  config : LayerConfig
  input : Shape
  output : Shape
deriving Repr

/-- The layers of a design after the input, in order. -/
structure ShapePlan where
  declared : Shape
  input : Shape
  layers : List ResolvedLayer
deriving Repr

namespace ShapePlan

/-- Was a channel axis added? -/
def promoted (plan : ShapePlan) : Bool := plan.input != plan.declared

def output (plan : ShapePlan) : Shape := ((plan.layers.getLast?).map (·.output)).getD plan.input

/-- The declared shape and then the output of every layer. -/
def shapes (plan : ShapePlan) : List Shape := plan.declared :: plan.layers.map (·.output)

/-! ## The design as a whole -/

/-- The types of the layers after the first, none of which may be an input. -/
def checkRest (start : Nat) : List LayerRecord → Except DesignError (List (LayerRecord × LayerType))
  | [] => .ok []
  | record :: records =>
    match LayerType.ofTag? record.type with
    | none => .error (.unknownType record.type (some start))
    | some .input => .error (.secondInput start)
    | some t => do
      let rest ← checkRest (start + 1) records
      return (record, t) :: rest

/-- The input record of a design and the records after it, with their types. -/
def checkStructure : List LayerRecord → Except DesignError (LayerRecord × List (LayerRecord × LayerType))
  | [] => .error .noLayers
  | first :: records =>
    if first.type ≠ LayerType.input.tag then .error (.firstNotInput first.type)
    else do
      let rest ← checkRest 1 records
      if rest.isEmpty then .error .inputOnly else return (first, rest)

/-! ## Layer by layer -/

/-- The checked parameters of a layer with the defaults of those that were left out. -/
def resolveParams (index : Nat) (record : LayerRecord) (t : LayerType) : Analysis (Entries String Value) := do
  let v ← Analysis.ofFault (Validation.ofParams t record.params)
  if v.isValid then
    return t.optionalDefaults.putAll v.values
  else
    let errors := v.messages.map fun (key, reasons) => (key.toText, reasons)
    .error (.design (.parameters t.tag errors (some index)))

/-- The layers from a place on, the first of them taking the shape `shape`. -/
def resolveLayers (index : Nat) (shape : Shape) : List (LayerRecord × LayerType) → Analysis (List ResolvedLayer)
  | [] => .ok []
  | (record, t) :: rest => do
    let params ← resolveParams index record t
    let config ← Analysis.ofFault (LayerConfig.ofParams t params)
    match config.outputShape shape with
    | .error mismatch => .error (.design (.shape index t.tag mismatch.message))
    | .ok output => do
      let layers ← resolveLayers (index + 1) output rest
      return { index, record, type := t, params, config, input := shape, output } :: layers

/-- Does a layer of this type take a two-dimensional sample as one channel? -/
def promotesChannels (t : LayerType) : Bool := t == .conv2d || t == .flatten

/-- The beginning of a plan: the declared shape, the shape fed to the first layer, and the layers still to resolve. -/
structure Outline where
  declared : Shape
  input : Shape
  rest : List (LayerRecord × LayerType)
deriving Repr

/-- The design as a whole, and its input layer. -/
def outline (records : List LayerRecord) : Analysis Outline := do
  let (first, rest) ← Analysis.ofDesign (checkStructure records)
  let params ← resolveParams 0 first .input
  let declared ← Analysis.ofFault (LayerConfig.inputShape? params)
  let promotes := match rest with
    | (_, t) :: _ => promotesChannels t && declared.length == 2
    | [] => false
  return { declared, input := if promotes then declared ++ [1] else declared, rest }

/-- The declared shape and the promoted one, of a design whose shape is promoted. -/
def promotion? (records : List LayerRecord) : Option (Shape × Shape) :=
  match outline records with
  | .ok o => if o.input = o.declared then none else some (o.declared, o.input)
  | .error _ => none

/-- The plan of a design's records. -/
def ofRecords (records : List LayerRecord) : Analysis ShapePlan := do
  let o ← outline records
  let layers ← resolveLayers 1 o.input o.rest
  return { declared := o.declared, input := o.input, layers }

/-- The plan of a design as it arrives. -/
def ofValues (layers : List Value) : Analysis ShapePlan := do
  ofRecords (← Analysis.ofDesign (LayerRecord.ofValues 0 layers))

end ShapePlan

end LayerStack
