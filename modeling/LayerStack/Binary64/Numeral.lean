import LayerStack.Binary64
import LayerStack.Text.Blank
import LayerStack.Text.DecimalDigit

/-!
# LayerStack.Binary64.Numeral

Numerals: the texts that spell a double.

A numeral is an optional sign and then `inf`, `infinity` or `nan` in any case, or digits with an optional point and
an optional exponent.  Digits may be those of any script, single underscores may stand between two digits, and
blanks around the numeral do not count.
-/

namespace LayerStack.Numeral

open Text

/-- ASCII digits for the digits of any script; other characters stay. -/
def latinDigit (c : Char) : Char :=
  match decimalValue? c with
  | some d => Char.ofNat ('0'.toNat + d)
  | none => c

/-- The characters without their underscores, if each of these stands between two digits. -/
def joinGroups? : List Char → Option (List Char)
  | [] => some []
  | '_' :: _ => none
  | c :: '_' :: d :: r => if c.isDigit && d.isDigit then (joinGroups? (d :: r)).map (c :: ·) else none
  | c :: r => (joinGroups? r).map (c :: ·)

/-- The number that a run of ASCII digits spells. -/
def digitsValue (cs : List Char) : Nat :=
  cs.foldl (fun n c => 10 * n + (c.toNat - '0'.toNat)) 0

/-- An optional sign, and what follows it. -/
def splitSign : List Char → Bool × List Char
  | '-' :: r => (true, r)
  | '+' :: r => (false, r)
  | r => (false, r)

/-- The exponent part: nothing, or `e` and a signed run of digits up to the end. -/
def exponent? : List Char → Option Int
  | [] => some 0
  | c :: r =>
    let (negative, digits) := splitSign r
    if (c = 'e' ∨ c = 'E') ∧ digits ≠ [] ∧ digits.all Char.isDigit then
      some (if negative then -(digitsValue digits : Int) else digitsValue digits)
    else none

/-- The value of an unsigned numeral in digits. -/
def digits? (negative : Bool) (cs : List Char) : Option Binary64 :=
  let whole := cs.takeWhile Char.isDigit
  let (part, rest) := match cs.dropWhile Char.isDigit with
    | '.' :: r => (r.takeWhile Char.isDigit, r.dropWhile Char.isDigit)
    | r => ([], r)
  if whole = [] ∧ part = [] then none
  else (exponent? rest).map fun e => .ofDecimal negative (digitsValue (whole ++ part)) (e - part.length)

/-- The value of an unsigned numeral. -/
def unsigned? (negative : Bool) (cs : List Char) : Option Binary64 :=
  let word := String.ofList (cs.map Char.toLower)
  if word = "inf" ∨ word = "infinity" then some (.infinite negative)
  else if word = "nan" then some .nan
  else digits? negative cs

/-- The double that a text spells, if it is a numeral. -/
def read? (s : String) : Option Binary64 := do
  let cs ← joinGroups? ((strip s.toList).map latinDigit)
  let (negative, rest) := splitSign cs
  unsigned? negative rest

/-- The integer that a text spells by a sign and digits alone. -/
def integer? (s : String) : Option Int := do
  let cs ← joinGroups? ((strip s.toList).map latinDigit)
  let (negative, digits) := splitSign cs
  if digits ≠ [] ∧ digits.all Char.isDigit then
    return if negative then -(digitsValue digits : Int) else digitsValue digits
  else none

end LayerStack.Numeral
