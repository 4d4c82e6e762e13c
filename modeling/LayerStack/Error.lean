import LayerStack.Parameter.Rule

/-!
# LayerStack.Error

What can be wrong with a design, cause by cause.

Every cause has one wording, names the layer it is about where there is one, and belongs to one class of failure.
The classes form a tree: whoever handles a class handles those below it.
-/

namespace LayerStack

/-! ## Classes of failure -/

/-- A class of failure. -/
inductive ErrorClass where
  | compile | configuration | unknownLayerType | parameter | shape | operatorBuild | modelState
  /-- A value out of its range: the class above the failures of a design. -/
  | value
  /-- An operation at the wrong time. -/
  | runtime
deriving Repr, DecidableEq

namespace ErrorClass

def name : ErrorClass → String
  | .compile => "CompileError"
  | .configuration => "ConfigurationError"
  | .unknownLayerType => "UnknownLayerTypeError"
  | .parameter => "ParameterError"
  | .shape => "ShapeError"
  | .operatorBuild => "OperatorBuildError"
  | .modelState => "ModelStateError"
  | .value => "ValueError"
  | .runtime => "RuntimeError"

def all : List ErrorClass :=
  [.compile, .configuration, .unknownLayerType, .parameter, .shape, .operatorBuild, .modelState, .value, .runtime]

theorem mem_all (c : ErrorClass) : c ∈ all := by cases c <;> decide

/-- The class with a name. -/
def ofName? (name : String) : Option ErrorClass := all.find? (·.name = name)

theorem ofName?_name (c : ErrorClass) : ofName? c.name = some c := by cases c <;> decide

/-- The class above. -/
def parent? : ErrorClass → Option ErrorClass
  | .compile => some .value
  | .configuration => some .compile
  | .unknownLayerType => some .configuration
  | .parameter => some .configuration
  | .shape => some .compile
  | .operatorBuild => some .value
  | .modelState => some .runtime
  | .value => none
  | .runtime => none

/-- The class itself and those above it, upward.  No class is more than three below the top. -/
def ancestry (c : ErrorClass) : List ErrorClass :=
  go 4 (some c)
where
  go : Nat → Option ErrorClass → List ErrorClass
    | fuel + 1, some c => c :: go fuel c.parent?
    | _, _ => []

end ErrorClass

/-! ## Errors of a design -/

/-- The fields of a layer record, in the order in which their faults are listed. -/
inductive RecordField where
  | id | type | name | params
deriving Repr, DecidableEq

def RecordField.label : RecordField → String
  | .id => "id"
  | .type => "type"
  | .name => "name"
  | .params => "params"

/-- What is wrong with a field of a layer record. -/
inductive FieldFault where
  | missing | notText | notMapping | frozen
deriving Repr, DecidableEq

def FieldFault.message : FieldFault → String
  | .missing => "Field required"
  | .notText => "Input should be a valid string"
  | .notMapping => "Input should be a valid dictionary"
  | .frozen => "Field is frozen"

/-- What is wrong with a layer record. -/
inductive RecordFault where
  | field (place : RecordField) (fault : FieldFault)
  /-- A parameter whose key is no text. -/
  | key (text : String)
  /-- A field that records do not have. -/
  | unknown (name : String)
deriving Repr, DecidableEq

/-- A fault and the place it is at. -/
def RecordFault.message : RecordFault → String
  | .field place fault => place.label ++ ": " ++ fault.message
  | .key text => s!"params.{text}.[key]: {FieldFault.notText.message}"
  | .unknown name => s!"{name}: Object has no attribute '{name}'"

/-- The faults of a record in one text. -/
def RecordFault.messages (faults : List RecordFault) : String := "; ".intercalate (faults.map (·.message))

/-- What is wrong with a design. -/
inductive DesignError where
  /-- A layer that is no record at all. -/
  | notRecord (index : Option Int) (typeName : String)
  /-- A record with missing or ill-typed fields. -/
  | malformed (index : Option Int) (faults : List RecordFault) (layerType : Option String)
  | noLayers
  | firstNotInput (layerType : String)
  | secondInput (index : Nat)
  | inputOnly
  /-- Too short a design to end in a classification head. -/
  | noHead
  | unknownType (tag : String) (index : Option Nat)
  | parameters (layerType : String) (errors : List (String × List String)) (index : Option Nat)
  /-- A layer that cannot take the shape before it. -/
  | shape (index : Nat) (layerType : String) (reason : String)
  /-- A failure of another making. -/
  | general (configuration : Bool) (message : String) (index : Option Nat) (layerType : Option String)
deriving Repr, DecidableEq

namespace DesignError

def errorClass : DesignError → ErrorClass
  | .unknownType .. => .unknownLayerType
  | .parameters .. => .parameter
  | .shape .. => .shape
  | .general false .. => .compile
  | _ => .configuration

/-- How a layer is named in a message. -/
def layerName : Option Int → String
  | none => "Layer"
  | some index => s!"Layer {index}"

/-- How a failure of one layer is worded. -/
def shapeText (index layerType reason : String) : String := s!"Layer {index} ({layerType}): {reason}"

/-- How failing parameters are worded, each with its reasons. -/
def parametersText (layerType : String) (errors : List (String × List String)) (index : Option String) : String :=
  let details := "; ".intercalate (errors.map fun (name, reasons) => name ++ ": " ++ ", ".intercalate reasons)
  s!"Invalid parameters for {layerType} layer" ++ index.elim "" (" at layer " ++ ·) ++ ": " ++ details

/-- How an unknown layer type is worded. -/
def unknownText (tag : String) : String := "Unknown layer type: " ++ tag

def message : DesignError → String
  | .notRecord index typeName => s!"{layerName index} must be a mapping with a type, got {typeName}"
  | .malformed index faults _ => s!"{layerName index} is malformed: " ++ RecordFault.messages faults
  | .noLayers => "No layers defined"
  | .firstNotInput _ => "First layer must be an input layer"
  | .secondInput _ => "Only the first layer may be an input layer"
  | .inputOnly => "Model has no layers after the input layer"
  | .noHead => "Model must have at least an input and output layer"
  | .unknownType tag _ => unknownText tag
  | .parameters layerType errors index => parametersText layerType errors (index.map toString)
  | .shape index layerType reason => shapeText (toString index) layerType reason
  | .general _ message _ _ => message

/-- The index of the layer at fault. -/
def layerIndex : DesignError → Option Int
  | .notRecord index _ | .malformed index _ _ => index
  | .unknownType _ index | .parameters _ _ index | .general _ _ index _ => index.map Int.ofNat
  | .firstNotInput _ | .inputOnly => some 0
  | .secondInput index | .shape index _ _ => some index
  | .noLayers | .noHead => none

/-- The type tag of the layer at fault. -/
def layerType : DesignError → Option String
  | .notRecord .. | .noLayers | .noHead => none
  | .malformed _ _ layerType | .general _ _ _ layerType => layerType
  | .firstNotInput layerType | .parameters layerType _ _ | .shape _ layerType _ => some layerType
  | .secondInput _ | .inputOnly => some "input"
  | .unknownType tag _ => some tag

end DesignError

end LayerStack
