import LayerStack.Binary64
import LayerStack.Word

/-!
# LayerStack.Value

The values a layer parameter or a training option can arrive with.

A design comes from a form, a file or a program, so a parameter may be any of these before it is coerced and
checked: nothing, a boolean, an unbounded integer, a double, text, a list, an immutable row, a mapping in insertion
order, a fixed-width scalar or a rectangular array of numbers.  An array whose integers need the last bit of a word
holds unsigned words; one with an integer beyond those holds integers without a width.
-/

namespace LayerStack

/-- A number of a fixed machine type. -/
inductive MachineScalar where
  | int64 (n : Int)
  | int32 (n : Int)
  | uint64 (n : Int)
  | float64 (x : Binary64)
  | float32 (x : Binary64)
  | bool (b : Bool)
deriving Repr, DecidableEq, Inhabited

/-- A raw parameter value. -/
inductive Value where
  | absent
  | bool (b : Bool)
  | int (n : Int)
  | float (x : Binary64)
  | text (s : String)
  | list (items : List Value)
  | row (items : List Value)
  | mapping (entries : List (Value × Value))
  | scalar (x : MachineScalar)
  /-- A rectangular array of at least one axis; its leaves are integers, booleans or doubles. -/
  | array (items : List Value)
deriving Repr, Inhabited

/-- An exact number: an integer, a double, or a single-precision value. -/
inductive Number where
  | int (n : Int)
  | double (x : Binary64)
  | single (x : Binary64)
deriving Repr, DecidableEq, Inhabited

namespace Number

/-- The order of two numbers by their exact values; `none` if either is not a number.  Beside a single-precision
value the other one is first rounded to single precision. -/
def compare? : Number → Number → Option Ordering
  | .int a, .int b => some (compare a b)
  | .single a, b => Binary64.compare? a (toSingle b)
  | a, .single b => Binary64.compare? (toSingle a) b
  | .double a, .double b => a.compare? b
  | .int a, .double b => (intDouble b a).map Ordering.swap
  | .double a, .int b => intDouble a b
where
  toSingle : Number → Binary64
    | .int n => (Binary64.ofInt n).toSingle
    | .double x => x.toSingle
    | .single x => x
  intDouble (x : Binary64) (n : Int) : Option Ordering :=
    match x with
    | .nan => none
    | .infinite negative => some (if negative then .lt else .gt)
    | .finite s m e =>
      let (a, d) := Binary64.fraction s m e
      some (compare a (n * d))

def lt (a b : Number) : Bool := compare? a b == some .lt

def le (a b : Number) : Bool := compare? a b == some .lt || compare? a b == some .eq

/-- Is there a double for a number?  There is none for an integer past their range. -/
def hasDouble : Number → Bool
  | .int n => (Binary64.ofInt? n).isSome
  | _ => true

def isInfinite : Number → Bool
  | .double (.infinite _) | .single (.infinite _) => true
  | _ => false

/-- A double in place of a number. -/
def widened : Number → Number
  | .int n => .double (.ofInt n)
  | .double x | .single x => .double x

/-- The nearest double. -/
def toBinary64 : Number → Binary64
  | .int n => .ofInt n
  | .double x => x
  | .single x => x

end Number

namespace Value

/-- The number a value is.  Booleans are not numbers here, whatever their width. -/
def number? : Value → Option Number
  | .int n => some (.int n)
  | .float x => some (.double x)
  | .scalar (.int64 n) => some (.int n)
  | .scalar (.int32 n) => some (.int n)
  | .scalar (.uint64 n) => some (.int n)
  | .scalar (.float64 x) => some (.double x)
  | .scalar (.float32 x) => some (.single x)
  | _ => none

/-- A number as a value. -/
def ofNumber : Number → Value
  | .int n => .int n
  | .double x => .float x
  | .single x => .scalar (.float32 x)

/-- An item of an array by itself: an array of one axis less, or a machine number; an integer beyond words stays one. -/
def entry : Value → Value
  | .list items => .array items
  | .int n =>
    if Word.isSigned n then .scalar (.int64 n) else if Word.isUnsigned n then .scalar (.uint64 n) else .int n
  | .float x => .scalar (.float64 x)
  | .bool b => .scalar (.bool b)
  | v => v

/-- Is a value an integer beyond words? -/
def isBeyondWords : Value → Bool
  | .int n => !(Word.isSigned n || Word.isUnsigned n)
  | _ => false

/-- The items of an array by themselves; where an integer is beyond words, none of them has a width. -/
def entries (items : List Value) : List Value := if items.any isBeyondWords then items else items.map entry

/-- The only leaf of nested lists, if there is just one. -/
def onlyLeaf? : List Value → Option Value
  | [.list items] => onlyLeaf? items
  | [v] => some v
  | _ => none

/-- A value, an array of one entry being that entry. -/
def unboxed (v : Value) : Value :=
  match v with
  | .array items => ((onlyLeaf? items).map entry).getD v
  | v => v

/-- The number a value counts as in a setting, where a boolean stands for one or zero. -/
def quantity? (v : Value) : Option Number :=
  match v.unboxed with
  | .bool b | .scalar (.bool b) => some (.int (if b then 1 else 0))
  | v => v.number?

/-- A value that counts as not given: nothing, or empty text. -/
def isMissing : Value → Bool
  | .absent => true
  | .text s => s == ""
  | _ => false

/-- A value that counts as switched on: not nothing, zero or empty. -/
def isOn (v : Value) : Bool :=
  match v.unboxed with
  | .absent => false
  | .bool b | .scalar (.bool b) => b
  | .int n | .scalar (.int64 n) | .scalar (.int32 n) | .scalar (.uint64 n) => n != 0
  | .float x | .scalar (.float64 x) | .scalar (.float32 x) => !(x.toInt? == some 0)
  | .text s => s != ""
  | .list items | .row items | .array items => !items.isEmpty
  | .mapping entries => !entries.isEmpty

def isBoolean : Value → Bool
  | .bool _ => true
  | .scalar (.bool _) => true
  | _ => false

/-- The elements of a value that can be walked through: a list, row or array by its items, a mapping by its keys, a text
by its characters. -/
def elements? : Value → Option (List Value)
  | .list items | .row items => some items
  | .array items => some (entries items)
  | .mapping entries => some (entries.map (·.1))
  | .text s => some (s.toList.map (.text ·.toString))
  | _ => none

end Value

end LayerStack
