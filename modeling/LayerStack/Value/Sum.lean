import LayerStack.Value

/-!
# LayerStack.Value.Sum

Integers of a machine type, and sums of numbers of any form.

A machine number takes a literal beside it into its own type.  Machine integers of two widths make one of the wider
width, two singles make a single, and all that is mixed otherwise makes a double.
-/

namespace LayerStack

/-! ## Machine integers -/

/-- The machine types of booleans and integers. -/
inductive WordType where
  | bool | int32 | int64 | uint64
deriving Repr, DecidableEq

namespace WordType

/-- An integer wrapped to the type; a boolean is on unless it is zero. -/
def wrap : WordType → Int → Int
  | .bool, n => if n = 0 then 0 else 1
  | .int32, n => n.bmod 4294967296
  | .int64, n => Word.wrapSigned n
  | .uint64, n => Word.wrap n

/-- What is wrapped once stays as it is. -/
theorem wrap_wrap (t : WordType) (n : Int) : t.wrap (t.wrap n) = t.wrap n := by
  cases t with
  | bool => by_cases h : n = 0 <;> simp [wrap, h]
  | int32 => simp [wrap]
  | int64 => simp [wrap, Word.wrapSigned]
  | uint64 => simp [wrap, Word.wrap]

/-- The type that two types share; wide words with a sign and without one share none. -/
def join? : WordType → WordType → Option WordType
  | .bool, t | t, .bool => some t
  | .int32, .int32 => some .int32
  | .uint64, .uint64 => some .uint64
  | .uint64, _ | _, .uint64 => none
  | _, _ => some .int64

/-- The type that an integer literal is taken into. -/
def ofLiteral : WordType → WordType
  | .bool => .int64
  | t => t

end WordType

/-- The type and the integer of a machine number that is one. -/
def MachineScalar.integer? : MachineScalar → Option (WordType × Int)
  | .bool b => some (.bool, if b then 1 else 0)
  | .int32 n => some (.int32, n)
  | .int64 n => some (.int64, n)
  | .uint64 n => some (.uint64, n)
  | .float64 _ | .float32 _ => none

/-! ## Sums -/

namespace Number

/-- The sum of two numbers as doubles, if they have any. -/
def sumDoubles? (x y : Number) : Option Number :=
  if x.hasDouble && y.hasDouble then some (.double (Binary64.add x.toBinary64 y.toBinary64)) else none

/-- The sum of two numbers as singles, if they have any. -/
def sumSingles? (x y : Number) : Option Number :=
  if x.hasDouble && y.hasDouble then
    some (.single (Binary64.add x.toBinary64.toSingle y.toBinary64.toSingle).toSingle)
  else none

end Number

namespace Value

/-- What a number is computed in: an integer or a double without a type of its own, or a machine type. -/
inductive Format where
  | integer (n : Int)
  | point
  | word (type : WordType) (n : Int)
  | single
  | double
deriving Repr, DecidableEq

/-- The format of a number and what it counts as. -/
def format? (v : Value) : Option (Format × Number) := do
  let x ← v.quantity?
  let format : Format :=
    match v.unboxed, x with
    | .scalar s, _ =>
      match s.integer?, x with
      | some (type, n), _ => .word type n
      | none, .single _ => .single
      | none, _ => .double
    | _, .int n => .integer n
    | _, _ => .point
  return (format, x)

/-- The sum of an integer literal and a machine integer, which has to have room for it. -/
def sumLiteral? (type : WordType) (n literal : Int) : Option Number :=
  let type := type.ofLiteral
  if type.wrap literal = literal then some (.int (type.wrap (n + literal))) else none

/-- The sum of two numbers; none of what is no number, or does not fit the format they share. -/
def sum? (a b : Value) : Option Number := do
  let (f, x) ← a.format?
  let (g, y) ← b.format?
  match f, g with
  | .integer m, .integer n => some (.int (m + n))
  | .word t m, .word u n =>
    match t.join? u with
    | some t => some (.int (t.wrap (m + n)))
    | none => Number.sumDoubles? x y
  | .word t m, .integer n | .integer n, .word t m => sumLiteral? t m n
  | .single, .single | .single, .integer _ | .integer _, .single | .single, .point | .point, .single
  | .single, .word .bool _ | .word .bool _, .single => Number.sumSingles? x y
  | _, _ => Number.sumDoubles? x y

end Value

end LayerStack
