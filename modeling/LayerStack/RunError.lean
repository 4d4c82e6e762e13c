import LayerStack.Layer.Choice
import LayerStack.Loss
import LayerStack.Optimizer.Kind
import LayerStack.Shape.Rule
import LayerStack.Validation
import LayerStack.Value.Share

/-!
# LayerStack.RunError

Why building, running or training a model has no result, once its design is accepted.

Every cause has one wording and belongs to one class of failure.  A tensor that does not fit (`mismatch`) has no wording
of its own: no model that was built from a design and fed with samples of its shape comes to it.
-/

namespace LayerStack

/-- What is chosen by name. -/
inductive Choice where
  | activation | initializer | loss | optimizer
deriving Repr, DecidableEq

namespace Choice

def label : Choice → String
  | .activation => "activation"
  | .initializer => "initializer"
  | .loss => "loss"
  | .optimizer => "optimizer"

/-- The names there are. -/
def names : Choice → List String
  | .activation => Activation.all.map (·.name)
  | .initializer => Initializer.all.map (·.name)
  | .loss => Loss.all.map (·.name)
  | .optimizer => OptimizerKind.all.map (·.name)

end Choice

/-- Why no operator can be built for a shape. -/
inductive BuildError where
  | encodingRank (shape : List Value)
  | encodingWidth
  | encodingLength (length greatest : Value)
  | encodingType (name : Value)
  | attentionRank (shape : List Value)
  | attentionWidth (width : Value)
  | attentionHeads
  | valueWidth
  | dropout (rate : Value)
  | blockRank (shape : List Value)
  | blockWidth (width : Value)
  | blockSizes
  /-- A reason of another making. -/
  | other (reason : String)
deriving Repr

namespace BuildError

def shapeText (shape : List Value) : String := (Value.row shape).toText

def message : BuildError → String
  | .encodingRank shape =>
    s!"Invalid input shape for positional encoding: expected rank 2 or 3 (seq, dim), got {shapeText shape}"
  | .encodingWidth => "Positional encoding needs a known embedding dimension"
  | .encodingLength length greatest => s!"Sequence length {length.toText} exceeds maxLength {greatest.toText}"
  | .encodingType name => s!"Unknown encoding type: {name.toText}"
  | .attentionRank shape =>
    s!"Invalid input shape for multi-head attention: expected at least rank 2 (seq, dim), got {shapeText shape}"
  | .attentionWidth width => s!"Invalid embedding dimension for multi-head attention: {width.toText}"
  | .attentionHeads => "numHeads and keyDim must be positive integers"
  | .valueWidth => "valueDim must be a positive integer"
  | .dropout rate => s!"Dropout must be in [0, 1], got {rate.toText}"
  | .blockRank shape =>
    s!"Invalid input shape for transformer block: expected rank 2 or 3 (seq, dim), got {shapeText shape}"
  | .blockWidth width => s!"Invalid embedding dimension for transformer block: {width.toText}"
  | .blockSizes => "numHeads, keyDim and ffDim must be positive integers"
  | .other reason => reason

end BuildError

/-- Why an operation has no result. -/
inductive RunError where
  | unknownName (choice : Choice) (name : String)
  | build (error : BuildError)
  | dropoutRate (rate : Value)
  | channels (expected : Value) (found : Nat)
  | normWidth (expected : Value) (found : Nat)
  | notTokens
  | tokenRange (vocabulary : Value) (least greatest : Int)
  | tooLong (length greatest : Value)
  | encodingWidth (expected : Value) (found : Nat)
  | attentionShape (width : Value) (dims : Dims)
  | batchShape (expected : Shape) (found : Dims)
  /-- Tensors that do not fit each other or the layer. -/
  | mismatch
  /-- A layer that says nothing of what it computes, or an optimizer of how it changes a weight. -/
  | undefined
  | disposed | compilerFailed | compilerBusy | noModel
  | learningRate (given : Value)
  | notInitialized
  | labels (classes : Value)
  | unevenShuffle
  | sampleRatio (given : Value)
  | unknownDataset (name : String)
  | unknownTemplate (id : String)
  | lengths (inputs labels : Nat)
  | batchSize (given : Value)
  | setting (requirement : String) (given : Value)
  | unknownOption (name : String)
  /-- A setting of the wrong form. -/
  | illTyped
  /-- A number beyond those of the form it is taken in: an infinite one as an integer, an integer as a double, or one
  below zero as a length. -/
  | tooLarge
  | noSamples | emptyEvaluation | noDataset
deriving Repr

namespace RunError

def dimsText (dims : Dims) : String := bracketed "[" (dims.map toString) "]"

def message : RunError → String
  | .unknownName choice name =>
    s!"Unknown {choice.label}: {name}. Expected one of: " ++ ", ".intercalate choice.names
  | .build error => error.message
  | .dropoutRate rate => s!"Dropout rate must be in [0, 1], got {rate.toText}"
  | .channels expected found => s!"Conv2D expected {expected.toText} input channels, got {found}"
  | .normWidth expected found => s!"LayerNorm expected last dimension {expected.toText}, got {found}"
  | .notTokens => "Embedding input must contain integer token IDs"
  | .tokenRange vocabulary least greatest =>
    s!"Token IDs must be in [0, {vocabulary.toText}), got range [{least}, {greatest}]"
  | .tooLong length greatest => s!"Sequence length {length.toText} exceeds maximum {greatest.toText}"
  | .encodingWidth expected found => s!"PositionalEncoding was built for dimension {expected.toText}, got {found}"
  | .attentionShape width dims =>
    s!"MultiHeadAttention expected input of shape (batch, seq, {width.toText}), got {rowText (dims.map toString)}"
  | .batchShape expected found =>
    s!"Expected a batch of samples with shape {expected.text}, got array of shape {dimsText found}"
  | .mismatch | .undefined | .illTyped => ""
  | .tooLarge => "int too large to convert to float"
  | .disposed => "Model has been disposed"
  | .compilerFailed => "Compiler is in the failed state; call reset() before compiling again"
  | .compilerBusy => "A compilation is already in progress"
  | .noModel => "No model has been built. Call build() first."
  | .learningRate given => s!"Learning rate must be positive, got {given.toText}"
  | .notInitialized => "Optimizer not initialized. Call initialize() first."
  | .labels classes => s!"Labels must be in [0, {classes.toText})"
  | .unevenShuffle => "All arrays must have the same length to be shuffled together"
  | .sampleRatio given => s!"Sample ratio must be in (0, 1], got {given.toText}"
  | .unknownDataset name => s!"Unknown dataset: {name}"
  | .unknownTemplate id => s!"Unknown template: {id}"
  | .lengths first second => s!"inputs and labels differ in length: {first} vs {second}"
  | .batchSize given => s!"batch_size must be positive, got {given.toText}"
  | .setting requirement given => s!"{requirement}, got {given.toText}"
  | .unknownOption name => s!"Unknown training option: {name}"
  | .noSamples => "No training samples"
  | .emptyEvaluation => "Cannot evaluate on an empty dataset"
  | .noDataset => "No dataset loaded. Call load_dataset() first."

def errorClass : RunError → ErrorClass
  | .build _ => .operatorBuild
  | .disposed | .compilerFailed | .compilerBusy | .noModel => .modelState
  | .notInitialized => .runtime
  | _ => .value

end RunError

/-- A choice by its name. -/
def Activation.choose (name : String) : Except RunError Activation :=
  match ofName? name with
  | some a => .ok a
  | none => .error (.unknownName .activation name)

def Initializer.choose (name : String) : Except RunError Initializer :=
  match ofName? name with
  | some a => .ok a
  | none => .error (.unknownName .initializer name)

def Loss.choose (name : String) : Except RunError Loss :=
  match ofName? name with
  | some a => .ok a
  | none => .error (.unknownName .loss name)

def OptimizerKind.choose (name : String) : Except RunError OptimizerKind :=
  match ofName? name with
  | some a => .ok a
  | none => .error (.unknownName .optimizer name)

/-- A result that is there where tensors fit. -/
def RunError.fit {β : Type} : Option β → Except RunError β
  | some b => .ok b
  | none => .error .mismatch

/-- A number that has a double. -/
def RunError.double (n : Number) : Except RunError Number := if n.hasDouble then .ok n else .error .tooLarge

/-- An integer that is a word. -/
def RunError.word (n : Int) : Except RunError Int := if Word.isSigned n then .ok n else .error .tooLarge

/-- The integer in a value. -/
def RunError.whole (v : Value) : Except RunError Int :=
  match v.whole? with
  | some n => .ok n
  | none => .error (if v.quantity?.isSome then .tooLarge else .illTyped)

end LayerStack
