import LayerStack.Layer.Record

/-!
# LayerStack.Validation

The parameters of a layer checked against its schema.

Checking is parameter by parameter and exhaustive: unknown parameters come first, in the order in which they were
given, then those of the schema in its order, each coerced and then held to every one of its rules.  All that is
wrong is reported at once.
-/

namespace LayerStack

/-- What can be said of one parameter. -/
inductive Complaint where
  | unknown (layerType : LayerType)
  | required
  | unreadable (error : CoercionError)
  | broken (rule : Rule)
deriving Repr

def Complaint.message : Complaint → String
  | .unknown t => s!"Unknown parameter for {t.tag} layer"
  | .required => "This field is required"
  | .unreadable error => error.message
  | .broken rule => rule.message

/-- The outcome of checking a layer's parameters: what is wrong, parameter by parameter, and the coerced values of
the parameters that were given and could be read. -/
structure Validation where
  errors : Entries Value (List Complaint)
  values : Entries String Value
deriving Repr

namespace Validation

/-- Nothing is wrong. -/
def isValid (v : Validation) : Bool := v.errors.isEmpty

/-- The errors in words. -/
def messages (v : Validation) : Entries Value (List String) :=
  v.errors.map fun (key, complaints) => (key, complaints.map (·.message))

/-- The outcome for one parameter of a schema, given its raw value. -/
def parameter (name : String) (spec : ParameterSpec) (raw : Value) : Except AnalysisFault Validation :=
  if raw.isMissing then .ok ⟨if spec.required then [(.text name, [.required])] else [], []⟩
  else
    match spec.kind.coerce raw with
    | .error .uneven => .error .uneven
    | .error .digits => .error .digits
    | .error error => .ok ⟨[(.text name, [.unreadable error])], []⟩
    | .ok value => do
      let broken ← Rule.broken spec.rules value
      return ⟨if broken.isEmpty then [] else [(.text name, broken.map .broken)], [(name, value)]⟩

/-- The outcomes for all parameters of a schema, one after the other. -/
def parameters : Schema → Mapping → Except AnalysisFault Validation
  | [], _ => .ok ⟨[], []⟩
  | (name, spec) :: schema, params => do
    let first ← parameter name spec (params.value name)
    let rest ← parameters schema params
    return ⟨first.errors ++ rest.errors, first.values ++ rest.values⟩

/-- The parameters that the type does not have. -/
def unknown (t : LayerType) (params : Mapping) : Entries Value (List Complaint) :=
  (params.filter fun (key, _) => !(isKnown key)).map fun (key, _) => (key, [.unknown t])
where
  isKnown : Value → Bool
    | .text name => (t.schema.lookup name).isSome
    | _ => false

/-- Checks the parameters of a layer. -/
def ofParams (t : LayerType) (params : Mapping) : Except AnalysisFault Validation := do
  let known ← parameters t.schema params
  return { known with errors := unknown t params ++ known.errors }

end Validation

/-! ## Designs -/

/-- Why an analysis has no result: the design is wrong, or it could not be decided. -/
inductive AnalysisError where
  | design (error : DesignError)
  | fault (fault : AnalysisFault)
deriving Repr, DecidableEq

def AnalysisError.message : AnalysisError → String
  | .design e => e.message
  | .fault f => f.message

/-- What goes on through an error of the design. -/
abbrev Analysis := Except AnalysisError

namespace Analysis

def ofDesign {α : Type} : Except DesignError α → Analysis α := Except.mapError .design

def ofFault {α : Type} : Except AnalysisFault α → Analysis α := Except.mapError .fault

end Analysis

/-- The type of a record at a place in a design. -/
def LayerRecord.layerType (record : LayerRecord) (index : Option Nat) : Analysis LayerType :=
  match LayerType.ofTag? record.type with
  | some t => .ok t
  | none => .error (.design (.unknownType record.type index))

/-- The failing records of a design, from a place on, with what is wrong with them. -/
def Validation.failing (start : Nat) : List LayerRecord → Analysis (List (Nat × Validation))
  | [] => .ok []
  | record :: records => do
    let t ← record.layerType (some start)
    let v ← Analysis.ofFault (Validation.ofParams t record.params)
    let rest ← failing (start + 1) records
    return if v.isValid then rest else (start, v) :: rest

/-- A single raw value in the form its parameter expects.  Unknown parameters and text that cannot be read stay as they
are. -/
def LayerType.sanitize (t : LayerType) (name : String) (raw : Value) : Except AnalysisFault Value :=
  match t.schema.lookup name with
  | none => .ok raw
  | some spec =>
    match spec.kind.coerce raw with
    | .ok value => .ok value
    | .error .uneven => .error .uneven
    | .error .digits => .error .digits
    | .error _ => .ok raw

/-- The constraints on a parameter in one line; `none` for unknown parameters. -/
def LayerType.describe (t : LayerType) (name : String) : Option String :=
  (t.schema.lookup name).bind (·.describe)

end LayerStack
