import LayerStack.Text.Quoted
import LayerStack.Value.ArrayText

/-!
# LayerStack.Value.Text

The text of a value in a message.

Text stands as itself at the top and quoted inside a container, where a machine number tells its type and an array that
it is one.  A list is written in square brackets, a row in round ones with a comma after a single item, a mapping as
`key: value` pairs in braces; a double by its shortest text.
-/

namespace LayerStack

/-- The name of a machine type. -/
def MachineScalar.typeName : MachineScalar → String
  | .int64 _ => "int64"
  | .int32 _ => "int32"
  | .uint64 _ => "uint64"
  | .float64 _ => "float64"
  | .float32 _ => "float32"
  | .bool _ => "bool"

/-- Items between brackets, separated by a comma and a space. -/
def bracketed (opening : String) (items : List String) (closing : String) : String :=
  opening ++ ", ".intercalate items ++ closing

/-- A row of items: a single item is followed by a comma. -/
def rowText (items : List String) : String :=
  match items with
  | [item] => "(" ++ item ++ ",)"
  | items => bracketed "(" items ")"

namespace Value

/-- The text of a machine number by itself, single precision by the digits that tell it from others of its kind. -/
def scalarText : MachineScalar → String
  | .int64 n | .int32 n | .uint64 n => toString n
  | .float64 x => x.toText
  | .float32 x => x.singleText
  | .bool b => ArrayText.boolText b

/-- The text of a machine number among other values. -/
def scalarLiteral (x : MachineScalar) : String :=
  match x with
  | .bool b => "np." ++ ArrayText.boolText b ++ "_"
  | x => "np." ++ x.typeName ++ "(" ++ scalarText x ++ ")"

mutual

/-- The text of a value inside a container, where text is quoted. -/
def literal : Value → String
  | .absent => "None"
  | .bool b => ArrayText.boolText b
  | .int n => toString n
  | .float x => x.toText
  | .text s => Text.quoted s
  | .list items => bracketed "[" (literals items) "]"
  | .row items => rowText (literals items)
  | .mapping entries => bracketed "\x7b" (entryLiterals entries) "\x7d"
  | .scalar x => scalarLiteral x
  | .array items => arrayLiteral items

def literals : List Value → List String
  | [] => []
  | v :: vs => literal v :: literals vs

def entryLiterals : List (Value × Value) → List String
  | [] => []
  | (key, v) :: rest => (literal key ++ ": " ++ literal v) :: entryLiterals rest

end

/-- The text of a value by itself. -/
def ownText : Value → String
  | .text s => s
  | .scalar x => scalarText x
  | .array items => arrayText items
  | v => literal v

/-- The text of a value in a message, where single precision counts as double. -/
def toText : Value → String
  | .scalar (.float32 x) => x.toText
  | v => v.ownText

/-- The name of a value's type in a message. -/
def typeName : Value → String
  | .absent => "NoneType"
  | .bool _ => "bool"
  | .int _ => "int"
  | .float _ => "float"
  | .text _ => "str"
  | .list _ => "list"
  | .row _ => "tuple"
  | .mapping _ => "dict"
  | .scalar x => x.typeName
  | .array _ => "ndarray"

end Value

end LayerStack
