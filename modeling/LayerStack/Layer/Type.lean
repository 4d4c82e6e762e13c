/-!
# LayerStack.Layer.Type

The closed set of layer types, in palette order, and their tags.
-/

namespace LayerStack

/-- A type of layer. -/
inductive LayerType where
  | input
  | dense
  | conv2d
  | maxpool2d
  | dropout
  | flatten
  | output
  | embedding
  | multiHeadAttention
  | layerNorm
  | positionalEncoding
  | transformerBlock
  | globalAvgPool1d
deriving Repr, DecidableEq, Inhabited

namespace LayerType

/-- Every layer type, in palette order. -/
def all : List LayerType := [
  .input, .dense, .conv2d, .maxpool2d, .dropout, .flatten, .output, .embedding, .multiHeadAttention, .layerNorm,
  .positionalEncoding, .transformerBlock, .globalAvgPool1d]

/-- The tag of a type in a design. -/
def tag : LayerType → String
  | .input => "input"
  | .dense => "dense"
  | .conv2d => "conv2d"
  | .maxpool2d => "maxpool2d"
  | .dropout => "dropout"
  | .flatten => "flatten"
  | .output => "output"
  | .embedding => "embedding"
  | .multiHeadAttention => "multiHeadAttention"
  | .layerNorm => "layerNorm"
  | .positionalEncoding => "positionalEncoding"
  | .transformerBlock => "transformerBlock"
  | .globalAvgPool1d => "globalAvgPool1d"

/-- The type of a tag; tags are case-sensitive. -/
def ofTag? (tag : String) : Option LayerType := all.find? (·.tag == tag)

theorem mem_all (t : LayerType) : t ∈ all := by cases t <;> decide

theorem ofTag?_tag (t : LayerType) : ofTag? t.tag = some t := by cases t <;> decide

end LayerType

end LayerStack
