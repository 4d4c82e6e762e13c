import LayerStack.Entries
import LayerStack.Value.Compare

/-!
# LayerStack.Value.Mapping

Mappings from values to values.

Most keys are names, but a number or a row may be one too; two keys are one and the same if they are equal as values.
-/

namespace LayerStack

/-- The entries of a mapping. -/
abbrev Mapping := Entries Value Value

namespace Mapping

/-- Values under names as a mapping. -/
def ofNamed (entries : Entries String Value) : Mapping := entries.map fun (name, v) => (.text name, v)

/-- The value of a name. -/
def find? (m : Mapping) (name : String) : Option Value := m.lookup (.text name)

/-- The value of a name, absent where there is none. -/
def value (m : Mapping) (name : String) : Value := (m.find? name).getD .absent

end Mapping

namespace Value

/-- Two elements as a key and its value. -/
def pair? (v : Value) : Option (Value × Value) :=
  match v.elements? with
  | some [key, value] => some (key, value)
  | _ => none

/-- The mapping a value is, or that its elements make as pairs; empty where it makes none. -/
def toMapping : Value → Mapping
  | .mapping entries => entries
  | v => .ofPairs ((v.elements?.getD []).filterMap pair?)

end Value

end LayerStack
