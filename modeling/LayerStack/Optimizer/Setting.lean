import LayerStack.Tensor.Any
import LayerStack.Value.Axes
import LayerStack.Value.Sum

/-!
# LayerStack.Optimizer.Setting

The settings of optimizers as numbers.

A setting is a number, or an array of numbers that is stretched to the axes of what it acts on.  The powers of an
integer are exact, and those of a machine integer wrap to its own words.
-/

namespace LayerStack

namespace Setting

variable {α : Type} [Scalar α]

/-- The scalar nearest to a number. -/
def number? (v : Value) : Option α := v.quantity?.map Scalar.ofNumber

/-- A natural power of an integer. -/
def integerPower? (k : Nat) : Value → Option Int
  | .int n => some (n.pow k)
  | .bool b => some (if b || k = 0 then 1 else 0)
  | .scalar x => x.integer?.map fun (type, n) => type.wrap (n.pow k)
  | _ => none

/-- A natural power of a number. -/
def power? (k : Nat) (v : Value) : Option α :=
  match integerPower? k v with
  | some n => some (Scalar.ofNumber (.int n))
  | none => v.quantity?.map fun x => Scalar.ofNumber x ^ k

/-- What a function makes of every number of a setting. -/
def tensor? (f : Value → Option α) (v : Value) : Option (AnyTensor α) :=
  match v with
  | .array items => do
    let dims ← Value.axesAll? items
    let entries ← (Value.entries (Value.leavesAll items)).mapM f
    return .ofArray dims entries.toArray
  | v => (f v).map fun a => ⟨[], a⟩

/-- The same on given axes, to which the setting is stretched. -/
def spread? (f : Value → Option α) (s : Dims) (v : Value) : Option (Tensor α s) := do (← tensor? f v).spread? s

/-- Is a setting a number or an array of numbers? -/
def isNumeric : Value → Bool
  | .array items => (Value.leavesAll items).all (·.quantity?.isSome)
  | v => v.quantity?.isSome

/-- Has a setting a double?  Only integers of unlimited size may have none. -/
def isDouble : Value → Bool
  | .int n => (Number.int n).hasDouble
  | _ => true

/-- Can a tensor be multiplied by a setting?  One of words takes an integer as a word, any other one as a double. -/
def scales (setting : Value) (words : Bool) : Bool :=
  match setting with
  | .int n => if words then Word.isSigned n else isDouble setting
  | _ => true

/-- Is there a double for a power of a setting?  The powers of integers of unlimited size have any size; those of plain
doubles must not run over, while a machine number may become infinite. -/
def hasPower (α : Type) [Scalar α] (k : Nat) : Value → Bool
  | .int n => (Number.int (n.pow k)).hasDouble
  | .float x => !Scalar.overruns (Scalar.ofNumber (.double x) : α) k
  | _ => true

end Setting

end LayerStack
