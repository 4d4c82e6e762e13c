import LayerStack.Value.Reader
import LayerStack.Value.Writer

/-!
# LayerStack.Value.Document

The parts of a document.

Whoever reads a document knows what to expect where; a part that is missing or of another form reads as the empty one.
-/

namespace LayerStack.Value

/-- The value of a key of a mapping. -/
def field? (v : Value) (key : String) : Option Value :=
  match v with
  | .mapping entries => Mapping.find? entries key
  | _ => none

/-- The value of a key, absent where there is none. -/
def field (v : Value) (key : String) : Value := (v.field? key).getD .absent

/-- The value of a key that is there and not absent. -/
def given? (v : Value) (key : String) : Option Value :=
  match v.field? key with
  | some .absent => none
  | given => given

def asItems : Value → List Value
  | .list items => items
  | _ => []

def asEntries : Value → Mapping
  | .mapping entries => entries
  | _ => []

def asText : Value → String
  | .text s => s
  | _ => ""

def asInt : Value → Int
  | .int n => n
  | _ => 0

def asNat (v : Value) : Nat := v.asInt.toNat

/-- Two items as a pair. -/
def asPair : Value → Value × Value
  | .list [a, b] => (a, b)
  | _ => (.absent, .absent)

end LayerStack.Value
