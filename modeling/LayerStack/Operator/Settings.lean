import LayerStack.Operator.Build

/-!
# LayerStack.Operator.Settings

Operators from loose settings.

A design comes with checked settings; an operator that is built on its own takes settings by name, each of any form.  A
size is the whole part of a number or an integer spelled in text, a flag is on as a value is on in a condition, and a
choice is looked up by the text of its value.
-/

namespace LayerStack

/-- Settings by name; one that is not there has its usual value. -/
structure Settings where
  given : Mapping

namespace Settings

/-! ## Reading one setting -/

def find? (s : Settings) (name : String) : Option Value := s.given.find? name

/-- A setting that is there and not absent. -/
def present? (s : Settings) (name : String) : Option Value := (s.find? name).filter fun v => !(v matches .absent)

def int? (s : Settings) (name : String) : Option Int := (s.present? name).bind Value.whole?

def int (s : Settings) (name : String) : Int := (s.int? name).getD 0

def size (s : Settings) (name : String) : Nat := (s.int name).toNat

def number (s : Settings) (name : String) (usual : Number) : Number :=
  ((s.find? name).bind Value.quantity?).getD usual

/-- A flag, on unless it is given otherwise. -/
def flag (s : Settings) (name : String) : Bool := (s.find? name).elim true Value.isOn

/-- A choice by name. -/
def choice {β : Type} (s : Settings) (name usual : String) (choose : String → Except RunError β) : Except RunError β :=
  choose ((s.find? name).elim usual Value.toText)

/-- Two sizes: the first two items of a row, or one for both. -/
def pairOf : Value → Except RunError (Int × Int)
  | .list (a :: b :: _) | .row (a :: b :: _) => do return (← RunError.whole a, ← RunError.whole b)
  | v => (RunError.whole v).map fun n => (n, n)

def pair (s : Settings) (name : String) (usual : Int × Int) : Except RunError (Int × Int) :=
  (s.present? name).elim (.ok usual) pairOf

/-- The padding of a name; any other value leaves the edges as they are. -/
def padding (s : Settings) (usual : Padding) : Padding :=
  match s.find? "padding" with
  | some v => (LayerConfig.named? Padding.ofName? v).getD .valid
  | none => usual

/-- The windows of a size and of strides, which are as long as the windows where they have no usual length. -/
def grid (s : Settings) (size : String) (usual : Int × Int) (usualStrides : Option (Int × Int)) (padding : Padding) :
    Except RunError WindowGrid := do
  let sizes ← s.pair size usual
  return .ofSizes sizes (← s.pair "strides" (usualStrides.getD sizes)) (s.padding padding)

/-- A decimal as a number. -/
def decimal (digits places : Nat) : Number := .double (.ofDecimal false digits (-(places : Int)))

/-- The activation and the initializer, or the first of them that is unknown. -/
def schemes (s : Settings) (activation : String) : Except RunError (Activation × Initializer) := do
  return (← s.choice "activation" activation Activation.choose,
    ← s.choice "kernel_initializer" "glorotUniform" Initializer.choose)

def attention (s : Settings) : AttentionConfig where
  heads := s.int "num_heads"
  keyWidth := s.int "key_dim"
  valueWidth := s.int? "value_dim"
  dropout := s.number "dropout" (decimal 0 1)
  useBias := s.flag "use_bias"

def block (s : Settings) : BlockConfig where
  heads := s.int "num_heads"
  keyWidth := s.int "key_dim"
  hidden := s.int "ff_dim"
  dropout := s.number "dropout" (decimal 1 1)

/-- The length of the rows of a sequence. -/
def width (s : Settings) : Nat := s.size "embedding_dimension"

/-! ## Operators -/

variable {α : Type} [Scalar α]

/-- What is drawn, if the settings it needs are in order. -/
def drawn {β γ : Type} (settings : Except RunError β) (draw : β → Draw (Except RunError γ)) :
    Draw (Except RunError γ) :=
  match settings with
  | .ok b => draw b
  | .error e => pure (.error e)

def dense (s : Settings) : Draw (Except RunError (Operator α)) :=
  drawn (s.schemes "linear") fun (activation, scheme) =>
    Operator.ofDense (s.size "input_features") (s.size "units") activation (s.flag "use_bias") scheme

def conv2d (s : Settings) : Draw (Except RunError (Operator α)) :=
  drawn (do return (← s.grid "kernel_size" (3, 3) (some (1, 1)) .same, ← s.schemes "linear"))
    fun (grid, activation, scheme) =>
      Operator.ofConv2D ⟨grid, s.size "in_channels", s.size "filters"⟩ activation (s.flag "use_bias") scheme

def maxPool2D (s : Settings) : Except RunError (Operator α) :=
  (s.grid "pool_size" (2, 2) none .valid).map fun grid => .maxPool2D grid none

def dropout (s : Settings) : Except RunError (Operator α) := Operator.ofDropout (s.number "rate" (decimal 0 1))

/-- The axes a value spells: those of a sequence of lengths, a single one for a length, none for what is absent. -/
def axesOf : Value → Dims
  | .absent => []
  | .list items | .row items | .array items => items.map size
  | v => [size v]
where
  size (v : Value) : Nat := (v.whole?.getD 0).toNat

/-- A normalization.  Its weights may have any axes; a sequence of lengths is no width of a row. -/
def layerNorm (s : Settings) : Operator α :=
  let declared := (s.find? "normalized_shape").getD .absent
  let epsilon := s.number "epsilon" (decimal 1 6)
  .layerNorm { layer := LayerNorm.fresh epsilon (s.flag "center") (s.flag "scale") (axesOf declared) declared }

def embedding (s : Settings) : Draw (Operator α) :=
  Operator.ofEmbedding (s.size "vocabulary_size") s.width (s.flag "trainable")

/-- A position table; any encoding but the learned one is the fixed one. -/
def positions (s : Settings) : Draw (Operator α) :=
  Operator.ofPositions (s.number "max_length" (.int 0)) (s.number "embedding_dimension" (.int 0))
    (((s.find? "encoding_type").bind (LayerConfig.named? EncodingType.ofName?)).getD .sinusoidal)

def positionsFor (s : Settings) (shape : LooseShape) : Draw (Except RunError (Operator α)) :=
  PositionTable.build (s.number "max_length" (.int 0))
    ((s.find? "encoding_type").getD (.text EncodingType.sinusoidal.name)) shape

def feedForward (s : Settings) : Draw (Except RunError (Operator α)) :=
  drawn (s.choice "activation" Activation.relu.name Activation.choose)
    (Operator.ofFeedForward s.width (s.size "hidden_dimension"))

/-! ## Causes of failure -/

/-- A setting as it was given, or what it was taken for. -/
def asGiven (s : Settings) (name : String) (taken : Value) : Value := (s.find? name).getD taken

/-- A cause of failure that tells the settings as they were given. -/
def told (s : Settings) : RunError → RunError
  | .channels taken found => .channels (s.asGiven "in_channels" taken) found
  | .tokenRange taken least greatest => .tokenRange (s.asGiven "vocabulary_size" taken) least greatest
  | .tooLong length taken => .tooLong length (s.asGiven "max_length" taken)
  | .encodingWidth taken found => .encodingWidth (s.asGiven "embedding_dimension" taken) found
  | .attentionShape taken dims => .attentionShape (s.asGiven "embedding_dimension" taken) dims
  | .dropoutRate taken => .dropoutRate (s.asGiven "rate" (s.asGiven "dropout" taken))
  | .build (.dropout taken) => .build (.dropout (s.asGiven "dropout" taken))
  | .build (.encodingLength length taken) => .build (.encodingLength length (s.asGiven "max_length" taken))
  | e => e

end Settings

end LayerStack
