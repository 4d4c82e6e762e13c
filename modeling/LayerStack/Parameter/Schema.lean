import LayerStack.Parameter.Kind
import LayerStack.Parameter.Rule

/-!
# LayerStack.Parameter.Schema

The declaration of a layer's parameters.
-/

namespace LayerStack

/-- The declaration of one parameter. -/
structure ParameterSpec where
  kind : Kind
  rules : List Rule := []
  required : Bool := false
  help : String := ""
deriving Repr

/-- The parameters of a layer type, in the order in which they are checked and reported. -/
abbrev Schema := List (String × ParameterSpec)

namespace ParameterSpec

/-- The one-line description of a parameter's constraints: whether it is required, its rules in short, its help. -/
def describe (spec : ParameterSpec) : Option String :=
  let parts := (if spec.required then ["Required"] else []) ++ spec.rules.map ruleText
    ++ (if spec.help.isEmpty then [] else [spec.help])
  if parts.isEmpty then none else some (". ".intercalate parts)
where
  /-- A rule in short: what it says of positive integers and of unit ranges is said the same way everywhere. -/
  ruleText (rule : Rule) : String :=
    if (rule.message.splitOn "positive integer").length > 1 then "Positive integer (1, 2, 3...)"
    else if (rule.message.splitOn "between 0 and 1").length > 1 then "Decimal between 0 and 1"
    else rule.message

end ParameterSpec

end LayerStack
