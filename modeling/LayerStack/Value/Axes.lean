import LayerStack.Value

/-!
# LayerStack.Value.Axes

Nested sequences as rectangles.

Lists, rows and arrays may hold one another to any depth.  What is no sequence is a leaf; a sequence is rectangular if
all its items have the same axes.
-/

namespace LayerStack.Value

/-- The sequence a value is, if it has items. -/
def sequence? : Value → Option (List Value)
  | .list items | .row items | .array items => some items
  | _ => none

mutual

/-- The leaves of a value in row-major order. -/
def leaves : Value → List Value
  | .list items | .row items | .array items => leavesAll items
  | v => [v]

def leavesAll : List Value → List Value
  | [] => []
  | v :: vs => leaves v ++ leavesAll vs

end

mutual

/-- The lengths along each axis, if the value is rectangular; a leaf has no axes. -/
def axes? : Value → Option (List Nat)
  | .list items | .row items | .array items => axesAll? items
  | _ => some []

/-- The axes of a sequence: its length, then the axes that all its items share. -/
def axesAll? : List Value → Option (List Nat)
  | [] => some [0]
  | [v] => (axes? v).map (1 :: ·)
  | v :: vs => do
    let first ← axes? v
    match ← axesAll? vs with
    | n :: rest => if rest = first then some ((n + 1) :: first) else none
    | [] => none

end

end LayerStack.Value
