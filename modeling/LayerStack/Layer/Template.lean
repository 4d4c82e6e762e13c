import LayerStack.Layer.Record
import LayerStack.RunError

/-!
# LayerStack.Layer.Template

Ready-made designs for common problems.

A template lists its layers as overrides of the palette; every reading of it makes fresh records, so a template can
be loaded more than once.
-/

namespace LayerStack

/-- One layer of a template: its type, its name, and what differs from the palette. -/
structure LayerBlueprint where
  type : LayerType
  name : String
  params : Entries String Value := []
deriving Repr

/-- A ready-made design. -/
structure Template where
  id : String
  name : String
  description : String
  category : String
  dataset : String
  blueprint : List LayerBlueprint
deriving Repr

namespace Template

def input (shape : List Int) : LayerBlueprint := ⟨.input, "Input Layer", [("shape", .list (shape.map .int))]⟩

def flatten : LayerBlueprint := ⟨.flatten, "Flatten", []⟩

def conv (name : String) (filters : Int) : LayerBlueprint :=
  ⟨.conv2d, name, [("filters", .int filters), ("kernelSize", .int 3), ("padding", .text "same")]⟩

def pool (name : String) : LayerBlueprint := ⟨.maxpool2d, name, [("poolSize", .int 2), ("strides", .int 2)]⟩

def dense (name : String) (units : Int) : LayerBlueprint :=
  ⟨.dense, name, [("units", .int units), ("activation", .text "relu")]⟩

/-- A dropout layer whose rate is given in hundredths. -/
def dropout (name : String) (hundredths : Nat) : LayerBlueprint :=
  ⟨.dropout, name, [("rate", LayerType.decimal hundredths 2)]⟩

def output (units : Int) : LayerBlueprint :=
  ⟨.output, "Output Layer", [("units", .int units), ("activation", .text "softmax")]⟩

/-- Every template, in the order in which they are offered. -/
def all : List Template := [
  { id := "simple-dense"
    name := "Simple Dense Network"
    description := "Basic fully-connected network for simple classification tasks"
    category := "classification"
    dataset := "mnist"
    blueprint := [
      input [28, 28, 1], flatten, dense "Hidden Layer 1" 128, dense "Hidden Layer 2" 64, output 10] },
  { id := "deep-dense"
    name := "Deep Dense Network"
    description := "Multi-layer fully-connected network with dropout regularization"
    category := "classification"
    dataset := "fashion-mnist"
    blueprint := [
      input [28, 28, 1], flatten, dense "Hidden Layer 1" 256, dropout "Dropout 1" 30, dense "Hidden Layer 2" 128,
      dropout "Dropout 2" 20, dense "Hidden Layer 3" 64, output 10] },
  { id := "simple-cnn"
    name := "Simple CNN"
    description := "Basic convolutional network for image classification"
    category := "computer-vision"
    dataset := "mnist"
    blueprint := [
      input [28, 28, 1], conv "Conv Layer 1" 32, pool "MaxPool 1", conv "Conv Layer 2" 64, pool "MaxPool 2", flatten,
      dense "Dense Layer" 128, output 10] },
  { id := "advanced-cnn"
    name := "Advanced CNN"
    description := "Deep convolutional network with multiple conv blocks and regularization"
    category := "computer-vision"
    dataset := "cifar10"
    blueprint := [
      input [32, 32, 3], conv "Conv Block 1A" 32, conv "Conv Block 1B" 32, pool "MaxPool 1", dropout "Dropout 1" 25,
      conv "Conv Block 2A" 64, conv "Conv Block 2B" 64, pool "MaxPool 2", dropout "Dropout 2" 25, flatten,
      dense "Dense Layer 1" 512, dropout "Dropout 3" 50, dense "Dense Layer 2" 256, output 10] },
  { id := "transformer-text-classifier"
    name := "Transformer Text Classifier"
    description := "Embedding, positional encoding and a transformer block over token IDs"
    category := "nlp"
    dataset := "ag-news"
    blueprint := [
      input [100],
      ⟨.embedding, "Embedding", [("vocabSize", .int 10000), ("embeddingDim", .int 64), ("maxLength", .int 100)]⟩,
      ⟨.positionalEncoding, "Positional Encoding", [("maxLength", .int 100)]⟩,
      ⟨.transformerBlock, "Transformer Block",
        [("numHeads", .int 4), ("keyDim", .int 16), ("ffDim", .int 128), ("dropout", LayerType.decimal 1 1)]⟩,
      ⟨.globalAvgPool1d, "Global Average Pooling", []⟩, dropout "Dropout" 10, output 4] }]

def find? (id : String) : Option Template := all.find? (·.id == id)

/-- A template by its id. -/
def choose (id : String) : Except RunError Template :=
  match find? id with
  | some t => .ok t
  | none => .error (.unknownTemplate id)

/-- The templates of a category. -/
def ofCategory (category : String) : List Template := all.filter (·.category == category)

/-- Fresh records of a template's layers. -/
def records (t : Template) : List LayerRecord :=
  t.blueprint.map fun layer => LayerRecord.fresh layer.type (some layer.name) (.ofNamed layer.params)

end Template

end LayerStack
