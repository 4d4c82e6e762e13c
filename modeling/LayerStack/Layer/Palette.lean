import LayerStack.Layer.Choice
import LayerStack.Layer.Type
import LayerStack.Parameter.Schema

/-!
# LayerStack.Layer.Palette

The palette: for every layer type its display name, its description, the parameters a fresh layer starts with, and
the schema its parameters are checked against.
-/

namespace LayerStack

namespace Rule

def activation : Rule := .oneOf (Activation.all.map (.text ·.name)) (some "Must be a valid activation function")

def initializer : Rule := .oneOf (Initializer.all.map (.text ·.name)) (some "Must be a valid kernel initializer")

def padding : Rule := .oneOf (Padding.all.map (.text ·.name)) (some "Must be \"valid\" or \"same\"")

def encodingType : Rule := .oneOf (EncodingType.all.map (.text ·.name)) none

/-- The range of integers from `least` to `greatest`. -/
def between (least greatest : Int) : Rule := .range (.int least) (.int greatest)

/-- A bound of a range: an integer must not be past the range of doubles. -/
def bound (v : Value) : Except AnalysisFault Value :=
  match boundNumber? v with
  | some n => (isWhole n).map fun _ => v
  | none => .ok v

/-- A rule by its name, from settings by position. -/
def named (name : String) (settings : List Value) : Except AnalysisFault Rule :=
  let setting (i : Nat) (usual : Value) : Value := settings.getD i usual
  match name with
  | "positive_integer" => .ok .positiveInteger
  | "positive_number" => .ok .positiveNumber
  | "probability" => .ok .probability
  | "probability_inclusive" => .ok .probabilityInclusive
  | "value_range" => do return .range (← bound (setting 0 .absent)) (← bound (setting 1 .absent))
  | "one_of" =>
    .ok (.oneOf ((setting 0 .absent).elements?.getD []) ((settings[1]?.filter Value.isOn).map Value.toText))
  | "array_of_positive_integers" => .ok .positiveIntegers
  | "shape_rank" => .ok (.rank (setting 0 (.int 1)) (setting 1 (.int 3)))
  | "boolean" => .ok .boolean
  | "activation" => .ok activation
  | "kernel_initializer" => .ok initializer
  | "padding" => .ok padding
  | _ => .ok .size2d

end Rule

namespace ParameterSpec

def count (help : String) (required : Bool) : ParameterSpec :=
  { kind := .int, rules := [.positiveInteger], required, help }

/-- A required or optional integer from 1 to a bound. -/
def bounded (greatest : Int) (help : String) (required : Bool) : ParameterSpec :=
  { kind := .int, rules := [.positiveInteger, .between 1 greatest], required, help }

def flag (help : String) : ParameterSpec := { kind := .bool, rules := [.boolean], help }

def activation : ParameterSpec := { kind := .choice, rules := [.activation], help := "Activation function" }

def initializer : ParameterSpec :=
  { kind := .choice, rules := [.initializer], help := "Weight initialization scheme" }

def padding : ParameterSpec := { kind := .choice, rules := [.padding], help := "valid or same" }

def size (help : String) (required : Bool) : ParameterSpec := { kind := .size, rules := [.size2d], required, help }

def dropout (help : String) : ParameterSpec := { kind := .number, rules := [.probabilityInclusive], help }

end ParameterSpec

namespace LayerType

open ParameterSpec

/-- The schema of dense and output layers. -/
def denseSchema : Schema := [
  ("units", count "Number of neurons" true),
  ("activation", activation),
  ("useBias", flag "Whether to add a learnable bias"),
  ("kernelInitializer", initializer)]

/-- The parameters of a layer type. -/
def schema : LayerType → Schema
  | .input => [
    ("shape", {
      kind := .shape, rules := [.rank (.int 1) (.int 3), .positiveIntegers], required := true,
      help := "Shape of one sample, without the batch dimension" })]
  | .dense | .output => denseSchema
  | .conv2d => [
    ("filters", count "Number of output channels" true),
    ("kernelSize", size "Height and width of each filter" true),
    ("strides", size "Step between windows" false),
    ("padding", padding),
    ("activation", activation),
    ("useBias", flag "Whether to add a learnable bias"),
    ("kernelInitializer", initializer)]
  | .maxpool2d => [
    ("poolSize", size "Pooling window size" false),
    ("strides", size "Step between windows (default: pool size)" false),
    ("padding", padding)]
  | .dropout => [
    ("rate", {
      kind := .number, rules := [.probability], required := true,
      help := "Fraction of units dropped during training" })]
  | .flatten => []
  | .embedding => [
    ("vocabSize", bounded 1000000 "Vocabulary size" true),
    ("embeddingDim", bounded 1024 "Vector size per token" true),
    ("maxLength", bounded 10000 "Longest sequence" true),
    ("trainable", flag "Whether the embedding table is updated in training")]
  | .multiHeadAttention => [
    ("numHeads", bounded 32 "Number of attention heads" true),
    ("keyDim", bounded 512 "Query/key size per head" true),
    ("valueDim", bounded 512 "Value size per head (default: keyDim)" false),
    ("dropout", ParameterSpec.dropout "Attention weight dropout"),
    ("useBias", flag "Whether projections have bias terms")]
  | .layerNorm => [
    ("epsilon", {
      kind := .number,
      rules := [.positiveNumber, .range (.float (.ofDecimal false 1 (-12))) (.float (.ofDecimal false 1 (-3)))],
      help := "Small constant added to the variance" }),
    ("center", flag "Learn a shift (beta)"),
    ("scale", flag "Learn a scale (gamma)")]
  | .positionalEncoding => [
    ("maxLength", bounded 10000 "Longest sequence" true),
    ("encodingType", {
      kind := .choice, rules := [.encodingType], help := "Fixed sinusoidal table or a learned one" })]
  | .transformerBlock => [
    ("numHeads", bounded 32 "Number of attention heads" true),
    ("keyDim", bounded 512 "Query/key size per head" true),
    ("ffDim", bounded 4096 "Feed-forward hidden size" true),
    ("dropout", ParameterSpec.dropout "Dropout rate inside the block")]
  | .globalAvgPool1d => []

/-- The name shown for a layer type. -/
def displayName : LayerType → String
  | .input => "Input Layer"
  | .dense => "Dense"
  | .conv2d => "Conv2D"
  | .maxpool2d => "MaxPooling2D"
  | .dropout => "Dropout"
  | .flatten => "Flatten"
  | .output => "Output"
  | .embedding => "Embedding"
  | .multiHeadAttention => "Multi-Head Attention"
  | .layerNorm => "Layer Normalization"
  | .positionalEncoding => "Positional Encoding"
  | .transformerBlock => "Transformer Block"
  | .globalAvgPool1d => "Global Average Pooling 1D"

/-- What a layer type does, in one sentence. -/
def description : LayerType → String
  | .input => "The entry point for data. Defines the shape of one sample."
  | .dense => "A fully connected layer: every unit sees every input value."
  | .conv2d => "Slides learned filters across an image to detect local features."
  | .maxpool2d => "Keeps the maximum of each window to shrink the spatial size."
  | .dropout => "Randomly zeroes units during training to reduce overfitting."
  | .flatten => "Collapses a multi-dimensional sample into a vector."
  | .output => "The final layer producing predictions, one unit per class."
  | .embedding => "Maps integer token IDs to learned dense vectors."
  | .multiHeadAttention => "Lets every position attend to every other position of the sequence."
  | .layerNorm => "Normalizes each position across its features."
  | .positionalEncoding => "Adds position information to a sequence of embeddings."
  | .transformerBlock =>
    "Self-attention followed by a feed-forward network, each with a residual connection and layer normalization."
  | .globalAvgPool1d => "Averages a sequence into a single vector."

/-- A double written as `digits / 10 ^ places`. -/
def decimal (digits places : Nat) : Value := .float (.ofDecimal false digits (-(places : Int)))

/-- The parameters a fresh layer starts with. -/
def defaults : LayerType → Entries String Value
  | .input => [("shape", .list [.int 28, .int 28])]
  | .dense => [
    ("units", .int 128), ("activation", .text "relu"), ("useBias", .bool true),
    ("kernelInitializer", .text "glorotUniform")]
  | .conv2d => [
    ("filters", .int 32), ("kernelSize", .int 3), ("strides", .int 1), ("padding", .text "same"),
    ("activation", .text "relu"), ("useBias", .bool true)]
  | .maxpool2d => [("poolSize", .int 2), ("padding", .text "valid")]
  | .dropout => [("rate", decimal 2 1)]
  | .flatten => []
  | .output => [
    ("units", .int 10), ("activation", .text "softmax"), ("useBias", .bool true),
    ("kernelInitializer", .text "glorotUniform")]
  | .embedding => [
    ("vocabSize", .int 10000), ("embeddingDim", .int 128), ("maxLength", .int 200), ("trainable", .bool true)]
  | .multiHeadAttention => [
    ("numHeads", .int 8), ("keyDim", .int 64), ("dropout", decimal 0 1), ("useBias", .bool true)]
  | .layerNorm => [("epsilon", decimal 1 6), ("center", .bool true), ("scale", .bool true)]
  | .positionalEncoding => [("maxLength", .int 200), ("encodingType", .text "sinusoidal")]
  | .transformerBlock => [
    ("numHeads", .int 8), ("keyDim", .int 64), ("ffDim", .int 512), ("dropout", decimal 1 1)]
  | .globalAvgPool1d => []

/-- The defaults of the parameters a design may leave out. -/
def optionalDefaults (t : LayerType) : Entries String Value :=
  t.defaults.filter fun (name, _) => !((t.schema.lookup name).map (·.required)).getD false

end LayerType

end LayerStack
