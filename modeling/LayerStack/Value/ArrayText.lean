import LayerStack.Binary64.Rounded
import LayerStack.Value.Axes

/-!
# LayerStack.Value.ArrayText

The text of an array.

All entries of an array are written to one width, unless one of them is an integer beyond words.  Integers and booleans
are set to the right.  Doubles have their points
below one another and no more than eight places; they stand in exponent form if one is small or large, or if they are
far apart.  Innermost axes are lines, folded at a margin; outer axes set their blocks apart by empty lines.  Of an array
of more than a thousand entries only the ends of each axis are shown.
-/

namespace LayerStack

namespace ArrayText

def boolText (b : Bool) : String := if b then "True" else "False"

/-- A text behind spaces, up to a width. -/
def alignRight (width : Nat) (s : String) : String := "".pushn ' ' (width - s.length) ++ s

/-- The greatest of some lengths. -/
def widest (texts : List String) : Nat := (texts.map String.length).foldl max 0

/-! ## Doubles -/

/-- The parts of a written double: sign and whole digits, the digits behind the point, and the power of ten. -/
structure Parts where
  whole : String
  part : String
  power : Int
deriving Repr, DecidableEq

/-- A decimal split at its point. -/
def pointParts (x : Binary64.Decimal) : Parts :=
  if 0 ≤ x.exponent then ⟨x.text ++ "".pushn '0' x.exponent.toNat, "", 0⟩
  else
    let places := (-x.exponent).toNat
    let padded := "".pushn '0' (places + 1 - x.text.length) ++ x.text
    let whole := padded.length - places
    ⟨(padded.take whole).toString, (padded.drop whole).toString, 0⟩

/-- A decimal as one digit, the digits behind it and its power of ten. -/
def powerParts (x : Binary64.Decimal) : Parts := ⟨(x.text.take 1).toString, (x.text.drop 1).toString, x.leading⟩

/-- The parts of a finite double: its shortest digits or, where these are too many, as many as there are places for. -/
def parts (scientific negative : Bool) (mantissa : Nat) (exponent : Int) : Parts :=
  let (n, d) := Binary64.fraction false mantissa exponent
  let x := if mantissa = 0 then ⟨0, 0⟩ else Binary64.Format.double.shortest mantissa exponent
  let p :=
    if scientific then powerParts (if x.text.length ≤ 9 then x else (Binary64.atDigits n.toNat d 9).trim)
    else pointParts (if -8 ≤ x.exponent then x else (Binary64.atPlaces n.toNat d 8).trim)
  if negative then { p with whole := "-" ++ p.whole } else p

/-- Do finite doubles need the exponent form?  Zeros do not count. -/
def needsPowers (doubles : List Binary64) : Bool :=
  let sizes := doubles.filterMap fun
    | .finite _ (m + 1) e => some (Binary64.finite false (m + 1) e)
    | _ => none
  let far (x y : Binary64) : Bool :=
    match x, y with
    | .finite _ m e, .finite _ m' e' =>
      let (n, d) := Binary64.fraction false m e
      let (n', d') := Binary64.fraction false m' e'
      Binary64.lt (.ofInt 1000) (.ofFraction (n * d') (d * n'.toNat))
    | _, _ => false
  match sizes with
  | [] => false
  | x :: rest =>
    let greatest := rest.foldl (fun a b => if Binary64.lt a b then b else a) x
    let least := rest.foldl (fun a b => if Binary64.lt b a then b else a) x
    !Binary64.lt greatest (.ofInt 100000000) || Binary64.lt least (.ofDecimal false 1 (-4)) || far greatest least

/-- The form that all doubles of an array are written in. -/
structure DoubleForm where
  scientific : Bool
  /-- The room before the point. -/
  before : Nat
  /-- The room for the digits behind the point. -/
  behind : Nat
  /-- The digits of a power of ten. -/
  powerDigits : Nat
deriving Repr

/-- The room behind the point. -/
def DoubleForm.tail (f : DoubleForm) : Nat := if f.scientific then f.powerDigits + 2 + f.behind else f.behind

/-- The form that some doubles need.  The words for the others count too. -/
def DoubleForm.of (doubles : List Binary64) : DoubleForm :=
  let scientific := needsPowers doubles
  let written := doubles.filterMap fun
    | .finite s m e => some (parts scientific s m e)
    | _ => none
  let f : DoubleForm := {
    scientific
    before := widest (written.map (·.whole))
    behind := widest (written.map (·.part))
    powerDigits := max 2 (widest (written.map fun p => toString p.power.natAbs)) }
  let words := doubles.filterMap fun
    | .finite .. => none
    | x => some x.toText
  { f with before := max f.before (widest words - (f.tail + 1)) }

/-- A double in a form. -/
def DoubleForm.text (f : DoubleForm) : Binary64 → String
  | .finite s m e =>
    let p := parts f.scientific s m e
    let zeros (n : Nat) (c : Char) : String := "".pushn c n
    alignRight f.before p.whole ++ "." ++ p.part ++
      if f.scientific then
        let digits := toString p.power.natAbs
        zeros (f.behind - p.part.length) '0' ++ (if p.power < 0 then "e-" else "e+")
          ++ zeros (f.powerDigits - digits.length) '0' ++ digits
      else zeros (f.behind - p.part.length) ' '
  | x => alignRight (f.before + f.tail + 1) x.toText

/-! ## Entries -/

/-- How the entries of an array with these leaves are written. -/
def entryText (leaves : List Value) : Value → String :=
  let form := DoubleForm.of (leaves.filterMap fun
    | .float x => some x
    | _ => none)
  let digits := if leaves.any Value.isBeyondWords then 0 else widest (leaves.filterMap fun
    | .int n => some (toString n)
    | _ => none)
  fun
  | .int n => alignRight digits (toString n)
  | .bool b => alignRight 5 (boolText b)
  | .float x => form.text x
  | _ => ""

/-- How many entries an array shows all of. -/
def greatestShown : Nat := 1000

/-- The items of an axis that are shown, the gap between them as `none`. -/
def shown (short : Bool) (items : List Value) : List (Option Value) :=
  if short && 6 < items.length then
    (items.take 3).map some ++ [none] ++ (items.drop (items.length - 3)).map some
  else items.map some

/-- The leaves that are shown, for a number of axes. -/
def shownLeaves (short : Bool) : Nat → List Value → List Value
  | 0, _ => []
  | axes + 1, items =>
    let kept := (shown short items).filterMap id
    if axes = 0 then kept else kept.flatMap fun v => shownLeaves short axes ((v.sequence?).getD [])

/-! ## Layout -/

/-- The layout of an array: how entries are written, what stands between two of them, and whether only ends are
shown. -/
structure Layout where
  entry : Value → String
  separator : String
  short : Bool

/-- The separator at the end of a line. -/
def Layout.mark (l : Layout) : String := l.separator.trimAsciiEnd.toString

/-- Words in lines of some width, each beginning with the indent.  A word that does not fit begins a line of its own,
but not where the line has nothing yet. -/
def Layout.fold (l : Layout) (indent : String) (width : Nat) : String → List String → String
  | line, [] => line
  | line, word :: rest =>
    let full := indent.length < line.length && width < line.length + word.length
    let start := if full then line.trimAsciiEnd.toString ++ "\n" else ""
    let line := (if full then indent else line) ++ word
    match rest with
    | [] => start ++ line
    | _ => start ++ l.fold indent width (line ++ l.separator) rest

/-- The items of an array with as many further axes, in brackets; every line but the first begins with the indent. -/
def Layout.block (l : Layout) : Nat → String → Nat → List Value → String
  | 0, indent, width, items =>
    let words := (shown l.short items).map fun v => (v.map l.entry).getD "..."
    "[" ++ ((l.fold indent (width - 1) indent words).drop indent.length).toString ++ "]"
  | axes + 1, indent, width, items =>
    let blocks := (shown l.short items).map fun v =>
      (v.map fun v => l.block axes (indent ++ " ") (width - 1) ((v.sequence?).getD [])).getD "..."
    "[" ++ (l.mark ++ "".pushn '\n' (axes + 1) ++ indent).intercalate blocks ++ "]"

/-- The items of an array in brackets, indented below what stands before them. -/
def bracketed (separator : String) (before width : Nat) (items : List Value) : String :=
  let axes := (Value.axesAll? items).getD []
  let size := axes.foldl (· * ·) 1
  if size = 0 then "[]"
  else
    let short := greatestShown < size
    let entry := entryText (shownLeaves short axes.length items)
    Layout.block ⟨entry, separator, short⟩ (axes.length - 1) ("".pushn ' ' (before + 1)) width items

end ArrayText

namespace Value

/-- The text of an array alone. -/
def arrayText (items : List Value) : String := ArrayText.bracketed " " 0 75 items

/-- The type that an array tells among other values: of words without a sign, and of integers beyond words. -/
def unusualType? (leaves : List Value) : Option String :=
  if leaves.any isBeyondWords then some "object"
  else if leaves.any fun | .int n => !Word.isSigned n | _ => false then some "uint64"
  else none

/-- The text of an array among other values.  An empty one tells its type, and its axes where it has several; a long one
its axes. -/
def arrayLiteral (items : List Value) : String :=
  let axes := (axesAll? items).getD []
  let size := axes.foldl (· * ·) 1
  let axesText := "(" ++ ", ".intercalate (axes.map toString) ++ (if axes.length = 1 then ",)" else ")")
  let body := "array(" ++ ArrayText.bracketed ", " "array(".length 74 items
  let long := ArrayText.greatestShown < size
  let notes := (if long || size = 0 && axes != [0] then ["shape=" ++ axesText] else [])
    ++ ((if size = 0 then some "float64" else unusualType? (leavesAll items)).map ("dtype=" ++ ·)).toList
  if notes.isEmpty then body ++ ")"
  else
    let last := ((body.splitOn "\n").getLast?.getD "").length + 1
    let note := ", ".intercalate notes ++ ")"
    body ++ "," ++ (if 75 < last + note.length + 1 then "\n" ++ "".pushn ' ' "array(".length else " ") ++ note

end Value

end LayerStack
