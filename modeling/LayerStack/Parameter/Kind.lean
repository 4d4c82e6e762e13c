import LayerStack.Value.Reader
import LayerStack.Value.Uniform

/-!
# LayerStack.Parameter.Kind

The kinds of layer parameters, and what each makes of a raw value.

A form sends text, a program sends numbers, rows and arrays; `Kind.coerce` brings both to one form.  Numerals and
bracketed arrays in text are read, rows and arrays become lists, and a whole double becomes the integer it equals.
A value that is already of the right form passes untouched, and one of another form is left for the rules to
refuse, so coercion fails only on text that cannot be read.
-/

namespace LayerStack

/-- The kind of a parameter.  Every value of a `choice` passes as it is. -/
inductive Kind where
  | int | number | bool | choice | shape | size
deriving Repr, DecidableEq, Inhabited

/-- Why a value has no coerced form.  `uneven` is a row whose items do not form a rectangular array, and `digits` an
array text with an integer of more digits than are read; the others are text of the wrong form. -/
inductive CoercionError where
  | number | array | boolean | uneven | digits
deriving Repr, DecidableEq

def CoercionError.message : CoercionError → String
  | .number => "Must be a number"
  | .array => "Must be an array"
  | .boolean => "Must be true or false"
  | .uneven => "Rows of unequal length"
  | .digits => "Too many digits"

namespace Kind

def name : Kind → String
  | .int => "int"
  | .number => "number"
  | .bool => "bool"
  | .choice => "choice"
  | .shape => "shape"
  | .size => "size"

/-- The kind of a name.  Values of an unheard-of kind pass, as those of a choice do. -/
def ofName (name : String) : Kind :=
  ([.int, .number, .bool, .shape, .size].find? (·.name == name)).getD .choice

/-- A double, as the integer it equals if it is whole. -/
def ofBinary64 (x : Binary64) : Value :=
  match x.toInt? with
  | some n => .int n
  | none => .float x

/-- Fixed-width numbers become plain ones. -/
def plain : Value → Value
  | .scalar (.int64 n) | .scalar (.int32 n) | .scalar (.uint64 n) => .int n
  | .scalar (.float64 x) | .scalar (.float32 x) => .float x
  | v => v

/-- Fixed-width numbers become plain ones, and whole doubles integers. -/
def normalize (v : Value) : Value :=
  match plain v with
  | .float x => ofBinary64 x
  | v => v

/-- Normalizes a number; a boolean stays what it is. -/
def normalizeUnlessBoolean (v : Value) : Value := if v.isBoolean then v else normalize v

/-- The double a text spells. -/
def readNumber (s : String) : Except CoercionError Value :=
  match Numeral.read? s with
  | some x => .ok (.float x)
  | none => .error .number

/-- What the text of a shape or size spells: an array in brackets, or for a size a number. -/
def readSize (kind : Kind) (s : String) : Except CoercionError Value :=
  let cs := Text.strip s.toList
  if cs.head? = some '[' then
    match Value.Reader.list cs with
    | .ok items => .ok (.list items)
    | .error .grammar => .error .array
    | .error .digits => .error .digits
  else if kind = .size then readNumber s
  else .error .array

/-- Rows and arrays become lists of one element type. -/
def listed : Value → Except CoercionError Value
  | .row items | .array items =>
    match Value.uniform? items with
    | some items => .ok (.list items)
    | none => .error .uneven
  | v => .ok v

/-- The items of a list normalized, or a single value. -/
def normalizeItems : Value → Value
  | .list items => .list (items.map normalizeUnlessBoolean)
  | v => normalizeUnlessBoolean v

/-- The coerced form of a value that is not missing. -/
def coercePresent (kind : Kind) (v : Value) : Except CoercionError Value :=
  match kind with
  | .int => do
    let v ← match v with
      | .text s => readNumber s
      | v => .ok v
    return normalizeUnlessBoolean v
  | .number => do
    let v ← match v with
      | .text s => readNumber s
      | v => .ok v
    return plain v
  | .bool =>
    match v with
    | .text s =>
      if s = "true" then .ok (.bool true) else if s = "false" then .ok (.bool false) else .error .boolean
    | .scalar (.bool b) => .ok (.bool b)
    | v => .ok v
  | .shape | .size => do
    let v ← match v with
      | .text s => readSize kind s
      | v => .ok v
    return normalizeItems (← listed v)
  | .choice => .ok v

/-- The coerced form of a value; a missing value is absent. -/
def coerce (kind : Kind) (v : Value) : Except CoercionError Value :=
  if v.isMissing then .ok .absent else kind.coercePresent v

end Kind

end LayerStack
