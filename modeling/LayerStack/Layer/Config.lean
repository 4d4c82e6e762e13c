import LayerStack.Layer.Palette

/-!
# LayerStack.Layer.Config

The parameters of a layer as typed settings.

Once the parameters of a layer have been checked and completed with the palette's defaults, `LayerConfig.ofParams`
reads them into one record per layer type, and what comes later no longer looks at raw values.
-/

namespace LayerStack

/-- The settings of a dense layer. -/
structure DenseConfig where
  units : Int
  activation : Activation
  useBias : Bool
  initializer : Initializer
deriving Repr, DecidableEq

/-- The settings of a convolution. -/
structure ConvConfig where
  filters : Int
  kernel : Int × Int
  strides : Int × Int
  padding : Padding
  activation : Activation
  useBias : Bool
  initializer : Initializer
deriving Repr, DecidableEq

/-- The settings of a pooling layer. -/
structure PoolConfig where
  pool : Int × Int
  strides : Int × Int
  padding : Padding
deriving Repr, DecidableEq

/-- The settings of an embedding. -/
structure EmbeddingConfig where
  vocabulary : Int
  dimension : Int
  maxLength : Int
  trainable : Bool
deriving Repr, DecidableEq

/-- The settings of multi-head attention; values are as wide as keys unless another width is given. -/
structure AttentionConfig where
  heads : Int
  keyWidth : Int
  valueWidth : Option Int
  dropout : Number
  useBias : Bool
deriving Repr, DecidableEq

/-- The settings of a layer normalization. -/
structure NormConfig where
  epsilon : Number
  center : Bool
  scale : Bool
deriving Repr, DecidableEq

/-- The settings of a transformer block. -/
structure BlockConfig where
  heads : Int
  keyWidth : Int
  hidden : Int
  dropout : Number
deriving Repr, DecidableEq

/-- The settings of a layer after the input. -/
inductive LayerConfig where
  | dense (c : DenseConfig)
  | conv2d (c : ConvConfig)
  | maxpool2d (c : PoolConfig)
  | dropout (rate : Number)
  | flatten
  | embedding (c : EmbeddingConfig)
  | multiHeadAttention (c : AttentionConfig)
  | layerNorm (c : NormConfig)
  | positionalEncoding (maxLength : Int) (encoding : EncodingType)
  | transformerBlock (c : BlockConfig)
  | globalAvgPool1d
deriving Repr, DecidableEq

namespace LayerConfig

/-! ## Reading one parameter -/

/-- The parameters of a layer by name. -/
abbrev Params := Entries String Value

/-- Reads a parameter by one of the forms below. -/
def read {α : Type} (params : Params) (name : String) (form : Value → Option α) : Except AnalysisFault α :=
  match (params.lookup name).bind form with
  | some a => .ok a
  | none => .error (.incomplete name)

/-- Reads a parameter that may be left out. -/
def readOptional {α : Type} (params : Params) (name : String) (form : Value → Option α) :
    Except AnalysisFault (Option α) :=
  match params.lookup name with
  | none => .ok none
  | some _ => some <$> read params name form

def int? : Value → Option Int
  | .int n => some n
  | _ => none

def bool? : Value → Option Bool
  | .bool b => some b
  | _ => none

/-- A plain number: an integer or a double. -/
def number? : Value → Option Number
  | .int n => some (.int n)
  | .float x => some (.double x)
  | _ => none

/-- A text that names one of the choices. -/
def named? {α : Type} (ofName? : String → Option α) : Value → Option α
  | .text s => ofName? s
  | _ => none

/-- Two sizes: given one by one in a list, or one for both. -/
def pair? : Value → Option (Int × Int)
  | .list [a, b] => do return (← int? a, ← int? b)
  | v => (int? v).map fun n => (n, n)

def ints? : Value → Option (List Int)
  | .list items => items.mapM int?
  | _ => none

/-! ## Reading a layer -/

def dense? (params : Params) : Except AnalysisFault DenseConfig := do
  return {
    units := ← read params "units" int?
    activation := ← read params "activation" (named? Activation.ofName?)
    useBias := ← read params "useBias" bool?
    initializer := ← read params "kernelInitializer" (named? Initializer.ofName?) }

def conv2d? (params : Params) : Except AnalysisFault ConvConfig := do
  return {
    filters := ← read params "filters" int?
    kernel := ← read params "kernelSize" pair?
    strides := ← read params "strides" pair?
    padding := ← read params "padding" (named? Padding.ofName?)
    activation := ← read params "activation" (named? Activation.ofName?)
    useBias := ← read params "useBias" bool?
    initializer :=
      (← readOptional params "kernelInitializer" (named? Initializer.ofName?)).getD .glorotUniform }

def maxpool2d? (params : Params) : Except AnalysisFault PoolConfig := do
  let pool ← read params "poolSize" pair?
  return {
    pool
    strides := (← readOptional params "strides" pair?).getD pool
    padding := ← read params "padding" (named? Padding.ofName?) }

def embedding? (params : Params) : Except AnalysisFault EmbeddingConfig := do
  return {
    vocabulary := ← read params "vocabSize" int?
    dimension := ← read params "embeddingDim" int?
    maxLength := ← read params "maxLength" int?
    trainable := ← read params "trainable" bool? }

def multiHeadAttention? (params : Params) : Except AnalysisFault AttentionConfig := do
  return {
    heads := ← read params "numHeads" int?
    keyWidth := ← read params "keyDim" int?
    valueWidth := ← readOptional params "valueDim" int?
    dropout := ← read params "dropout" number?
    useBias := ← read params "useBias" bool? }

def layerNorm? (params : Params) : Except AnalysisFault NormConfig := do
  return {
    epsilon := ← read params "epsilon" number?
    center := ← read params "center" bool?
    scale := ← read params "scale" bool? }

def transformerBlock? (params : Params) : Except AnalysisFault BlockConfig := do
  return {
    heads := ← read params "numHeads" int?
    keyWidth := ← read params "keyDim" int?
    hidden := ← read params "ffDim" int?
    dropout := ← read params "dropout" number? }

/-- The settings of a layer after the input, from its checked parameters. -/
def ofParams (t : LayerType) (params : Params) : Except AnalysisFault LayerConfig :=
  match t with
  | .input => .error (.incomplete "type")
  | .dense | .output => .dense <$> dense? params
  | .conv2d => .conv2d <$> conv2d? params
  | .maxpool2d => .maxpool2d <$> maxpool2d? params
  | .dropout => .dropout <$> read params "rate" number?
  | .flatten => .ok .flatten
  | .embedding => .embedding <$> embedding? params
  | .multiHeadAttention => .multiHeadAttention <$> multiHeadAttention? params
  | .layerNorm => .layerNorm <$> layerNorm? params
  | .positionalEncoding => do
    let maxLength ← read params "maxLength" int?
    let encoding ← read params "encodingType" (named? EncodingType.ofName?)
    return .positionalEncoding maxLength encoding
  | .transformerBlock => .transformerBlock <$> transformerBlock? params
  | .globalAvgPool1d => .ok .globalAvgPool1d

/-- The declared shape of an input layer, from its checked parameters. -/
def inputShape? (params : Params) : Except AnalysisFault (List Int) := read params "shape" ints?

end LayerConfig

end LayerStack
