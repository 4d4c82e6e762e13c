/-!
# LayerStack.Layer.Choice

The named choices a layer offers: activations, weight initializers, padding modes and position encodings.
-/

namespace LayerStack

/-- An elementwise function after a layer's affine map (softmax runs along the last axis). -/
inductive Activation where
  | linear | relu | sigmoid | tanh | softmax | elu | selu | softplus | softsign | swish | mish | gelu
deriving Repr, DecidableEq, Inhabited

namespace Activation

def all : List Activation := [
  .linear, .relu, .sigmoid, .tanh, .softmax, .elu, .selu, .softplus, .softsign, .swish, .mish, .gelu]

def name : Activation → String
  | .linear => "linear"
  | .relu => "relu"
  | .sigmoid => "sigmoid"
  | .tanh => "tanh"
  | .softmax => "softmax"
  | .elu => "elu"
  | .selu => "selu"
  | .softplus => "softplus"
  | .softsign => "softsign"
  | .swish => "swish"
  | .mish => "mish"
  | .gelu => "gelu"

def ofName? (name : String) : Option Activation := all.find? (·.name == name)

end Activation

/-- A scheme for the first weights of a layer. -/
inductive Initializer where
  | glorotUniform | glorotNormal | heUniform | heNormal | leCunUniform | leCunNormal
  | zeros | ones | randomUniform | randomNormal | truncatedNormal
deriving Repr, DecidableEq, Inhabited

namespace Initializer

def all : List Initializer := [
  .glorotUniform, .glorotNormal, .heUniform, .heNormal, .leCunUniform, .leCunNormal, .zeros, .ones, .randomUniform,
  .randomNormal, .truncatedNormal]

def name : Initializer → String
  | .glorotUniform => "glorotUniform"
  | .glorotNormal => "glorotNormal"
  | .heUniform => "heUniform"
  | .heNormal => "heNormal"
  | .leCunUniform => "leCunUniform"
  | .leCunNormal => "leCunNormal"
  | .zeros => "zeros"
  | .ones => "ones"
  | .randomUniform => "randomUniform"
  | .randomNormal => "randomNormal"
  | .truncatedNormal => "truncatedNormal"

def ofName? (name : String) : Option Initializer := all.find? (·.name == name)

end Initializer

/-- What a window does at the border: it stays inside, or the input is padded so that every stride has a window. -/
inductive Padding where
  | valid | same
deriving Repr, DecidableEq, Inhabited

namespace Padding

def all : List Padding := [.valid, .same]

def name : Padding → String
  | .valid => "valid"
  | .same => "same"

def ofName? (name : String) : Option Padding := all.find? (·.name == name)

end Padding

/-- The table a positional encoding adds: fixed waves, or a table of its own that is trained. -/
inductive EncodingType where
  | sinusoidal | learned
deriving Repr, DecidableEq, Inhabited

namespace EncodingType

def all : List EncodingType := [.sinusoidal, .learned]

def name : EncodingType → String
  | .sinusoidal => "sinusoidal"
  | .learned => "learned"

def ofName? (name : String) : Option EncodingType := all.find? (·.name == name)

end EncodingType

end LayerStack
