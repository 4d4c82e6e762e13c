import LayerStack.Value.Text
import LayerStack.Word

/-!
# LayerStack.Value.Uniform

Rows and arrays of one element type.

The items of a row, nested to any depth, become one rectangular array, and all its leaves take the narrowest type
that holds every one of them: booleans, words with a sign, words without one, doubles or text.  A leaf that fits none of
these (nothing, a mapping, an integer beyond words) leaves all of them as they are.
-/

namespace LayerStack.Value

/-- What a leaf needs from the element type. -/
inductive LeafType where
  | bool
  | integer (n : Int)
  | single
  | double
  | text
  | other
deriving Repr, DecidableEq

/-- The element type of a whole array. -/
inductive ElementType where
  | bool | integer | double | text | other
deriving Repr, DecidableEq

def leafType : Value → LeafType
  | .bool _ | .scalar (.bool _) => .bool
  | .int n | .scalar (.int64 n) | .scalar (.int32 n) | .scalar (.uint64 n) =>
    if Word.isSigned n || Word.isUnsigned n then .integer n else .other
  | .float _ | .scalar (.float64 _) => .double
  | .scalar (.float32 _) => .single
  | .text _ => .text
  | _ => .other

/-- The narrowest element type for all leaves.  Words with a sign and integers that need the last bit share only the
doubles. -/
def elementType (leaves : List Value) : ElementType :=
  let types := leaves.map leafType
  if types.any (· == .other) then .other
  else if types.any (· == .text) then .text
  else if types.any (fun t => t == .double || t == .single) then .double
  else
    let integers := types.filterMap fun | .integer n => some n | _ => none
    if integers.isEmpty then (if types.isEmpty then .double else .bool)
    else if integers.any Word.isSigned && !integers.all Word.isSigned then .double
    else .integer

/-- A text as an element, which ends before the null characters at its end. -/
def elementText (s : String) : String := (s.dropEndWhile (· = '\x00')).toString

/-- A leaf as an element of the type. -/
def toElement (type : ElementType) (v : Value) : Value :=
  match type, v with
  | .bool, .scalar (.bool b) => .bool b
  | .integer, .bool b | .integer, .scalar (.bool b) => .int (if b then 1 else 0)
  | .integer, .scalar (.int64 n) | .integer, .scalar (.int32 n) | .integer, .scalar (.uint64 n) => .int n
  | .double, .bool b | .double, .scalar (.bool b) => .float (.ofInt (if b then 1 else 0))
  | .double, v => (v.number?.map fun n => Value.float n.toBinary64).getD v
  | .text, v => .text (elementText v.ownText)
  | _, v => v

mutual

/-- The nested lists of a value, its leaves mapped. -/
def nested (leaf : Value → Value) : Value → Value
  | .list items | .row items | .array items => .list (nestedAll leaf items)
  | v => leaf v

def nestedAll (leaf : Value → Value) : List Value → List Value
  | [] => []
  | v :: vs => nested leaf v :: nestedAll leaf vs

end

/-- The items of a sequence as nested lists of one element type; `none` if it is not rectangular. -/
def uniform? (items : List Value) : Option (List Value) :=
  (axesAll? items).map fun _ => nestedAll (toElement (elementType (leavesAll items))) items

/-- Is a leaf a boolean or an integer of any size? -/
def isCounting (v : Value) : Bool := v.isBoolean || v.number? matches some (.int _)

/-- An array of numbers: of the type that all leaves share where these are integers or booleans, of doubles
otherwise. -/
def arrayOf (items : List Value) : Value :=
  let leaves := leavesAll items
  let type := if leaves.all isCounting then elementType leaves else .double
  .array (nestedAll (toElement type) items)

end LayerStack.Value
