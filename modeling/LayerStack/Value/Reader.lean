import LayerStack.Binary64.Numeral
import LayerStack.Value.Mapping

/-!
# LayerStack.Value.Reader

Bracketed array text, such as `[3, 3]` typed into a form field.

The grammar is that of JSON with three more words for numbers, `NaN`, `Infinity` and `-Infinity`.  It is strict: no
leading zeros, no bare points, no trailing commas, no control characters inside a string.  A number with neither
fraction nor exponent is an integer, of any size that `maxDigits` digits can write; one of more digits ends the reading,
whatever stands after it.
-/

namespace LayerStack.Value.Reader

/-- Why a text is not read: it is none of the grammar, or an integer in it has more digits than are read. -/
inductive Refusal where
  | grammar | digits
deriving Repr, DecidableEq

/-- What may be missing from the grammar. -/
def expect {β : Type} (found : Option β) : Except Refusal β :=
  match found with
  | some b => .ok b
  | none => .error .grammar

/-- White space between tokens. -/
def isSpace (c : Char) : Bool := c = ' ' || c = '\t' || c = '\n' || c = '\r'

def skip (cs : List Char) : List Char := cs.dropWhile isSpace

/-- Removes a word from the front. -/
def word? (word : String) (cs : List Char) : Option (List Char) :=
  if word.toList.isPrefixOf cs then some (cs.drop word.length) else none

/-! ## Strings -/

def hexValue? (c : Char) : Option Nat :=
  if c.isDigit then some (c.toNat - '0'.toNat)
  else if 'a' ≤ c ∧ c ≤ 'f' then some (c.toNat - 'a'.toNat + 10)
  else if 'A' ≤ c ∧ c ≤ 'F' then some (c.toNat - 'A'.toNat + 10)
  else none

/-- A code unit written as four hexadecimal digits. -/
def unit? : List Char → Option (Nat × List Char)
  | a :: b :: c :: d :: r => do
    let a ← hexValue? a
    let b ← hexValue? b
    let c ← hexValue? c
    let d ← hexValue? d
    some (((a * 16 + b) * 16 + c) * 16 + d, r)
  | _ => none

/-- The second half of a surrogate pair, if one follows. -/
def lowUnit? : List Char → Option (Nat × List Char)
  | '\\' :: 'u' :: r => do
    let (low, r) ← unit? r
    if 0xdc00 ≤ low ∧ low < 0xe000 then some (low, r) else none
  | _ => none

/-- A character written by its code units after `\u`.  Half a surrogate pair alone is no character and becomes the
replacement character. -/
def escapedUnit? (cs : List Char) : Option (Char × List Char) := do
  let (unit, r) ← unit? cs
  if 0xd800 ≤ unit ∧ unit < 0xdc00 then
    match lowUnit? r with
    | some (low, r) => some (Char.ofNat (0x10000 + (unit - 0xd800) * 0x400 + (low - 0xdc00)), r)
    | none => some ('\ufffd', r)
  else if 0xdc00 ≤ unit ∧ unit < 0xe000 then some ('\ufffd', r)
  else some (Char.ofNat unit, r)

/-- The character after a backslash. -/
def escaped? : List Char → Option (Char × List Char)
  | '"' :: r => some ('"', r)
  | '\\' :: r => some ('\\', r)
  | '/' :: r => some ('/', r)
  | 'b' :: r => some ('\x08', r)
  | 'f' :: r => some ('\x0c', r)
  | 'n' :: r => some ('\n', r)
  | 'r' :: r => some ('\r', r)
  | 't' :: r => some ('\t', r)
  | 'u' :: r => escapedUnit? r
  | _ => none

/-- The rest of a string after its opening quote, collected in reverse. -/
def stringTail? : Nat → List Char → List Char → Option (String × List Char)
  | 0, _, _ => none
  | _ + 1, [], _ => none
  | _ + 1, '"' :: r, acc => some (String.ofList acc.reverse, r)
  | fuel + 1, '\\' :: r, acc => do
    let (c, r) ← escaped? r
    stringTail? fuel r (c :: acc)
  | fuel + 1, c :: r, acc => if c.toNat < 0x20 then none else stringTail? fuel r (c :: acc)

/-! ## Numbers -/

/-- The integer digits of a number: a single zero, or a run that starts with none. -/
def whole? (cs : List Char) : Option (List Char × List Char) :=
  match cs with
  | '0' :: r => some (['0'], r)
  | c :: _ => if c.isDigit then some (cs.takeWhile Char.isDigit, cs.dropWhile Char.isDigit) else none
  | [] => none

/-- The fraction of a number, where a point and a digit follow. -/
def part (cs : List Char) : List Char × List Char :=
  match cs with
  | '.' :: r =>
    if (r.takeWhile Char.isDigit).isEmpty then ([], cs) else (r.takeWhile Char.isDigit, r.dropWhile Char.isDigit)
  | _ => ([], cs)

/-- The exponent of a number, where an `e` and a signed digit follow. -/
def power? (cs : List Char) : Option Int × List Char :=
  match cs with
  | c :: r =>
    let (negative, digits) := Numeral.splitSign r
    let run := digits.takeWhile Char.isDigit
    if (c = 'e' ∨ c = 'E') ∧ run ≠ [] then
      let value : Int := Numeral.digitsValue run
      (some (if negative then -value else value), digits.dropWhile Char.isDigit)
    else (none, cs)
  | [] => (none, cs)

/-- The most digits that an integer is read with. -/
def maxDigits : Nat := 4300

/-- A number behind its sign: an integer where neither fraction nor exponent follows, else a double. -/
def unsigned (negative : Bool) (cs : List Char) : Except Refusal (Value × List Char) := do
  let (whole, rest) ← expect (whole? cs)
  let (fraction, rest) := part rest
  let (power, rest) := power? rest
  if fraction.isEmpty ∧ power.isNone then
    if maxDigits < whole.length then .error .digits
    else
      let n : Int := Numeral.digitsValue whole
      return (.int (if negative then -n else n), rest)
  else
    let digits := Numeral.digitsValue (whole ++ fraction)
    return (.float (.ofDecimal negative digits (power.getD 0 - fraction.length)), rest)

/-- A number with its sign. -/
def number : List Char → Except Refusal (Value × List Char)
  | '-' :: r => unsigned true r
  | cs => unsigned false cs

/-- A word that stands for a value. -/
def named? (cs : List Char) : Option (Value × List Char) :=
  let words : List (String × Value) := [
    ("null", .absent), ("true", .bool true), ("false", .bool false), ("NaN", .float .nan),
    ("Infinity", .float (.infinite false)), ("-Infinity", .float (.infinite true))]
  words.findSome? fun (word, value) => (word? word cs).map (value, ·)

/-! ## Values -/

mutual

/-- A value at the front of the text.  Two units of `fuel` for every character are enough. -/
def value : Nat → List Char → Except Refusal (Value × List Char)
  | 0, _ => .error .grammar
  | fuel + 1, '"' :: r => do
    let (s, r) ← expect (stringTail? fuel r [])
    return (.text s, r)
  | fuel + 1, '[' :: r =>
    match skip r with
    | ']' :: r => .ok (.list [], r)
    | r => items fuel r []
  | fuel + 1, '\x7b' :: r =>
    match skip r with
    | '\x7d' :: r => .ok (.mapping [], r)
    | r => entries fuel r []
  | _ + 1, cs =>
    match named? cs with
    | some found => .ok found
    | none => number cs

/-- The items of a list from its first one on, collected in reverse. -/
def items : Nat → List Char → List Value → Except Refusal (Value × List Char)
  | 0, _, _ => .error .grammar
  | fuel + 1, cs, acc => do
    let (v, r) ← value fuel cs
    match skip r with
    | ',' :: r => items fuel (skip r) (v :: acc)
    | ']' :: r => .ok (.list (v :: acc).reverse, r)
    | _ => .error .grammar

/-- The entries of a mapping from its first one on; a key given twice keeps its place and its last value. -/
def entries : Nat → List Char → Mapping → Except Refusal (Value × List Char)
  | 0, _, _ => .error .grammar
  | fuel + 1, '"' :: r, acc => do
    let (key, r) ← expect (stringTail? fuel r [])
    match skip r with
    | ':' :: r =>
      let (v, r) ← value fuel (skip r)
      let acc := acc.put (.text key) v
      match skip r with
      | ',' :: r => entries fuel (skip r) acc
      | '\x7d' :: r => .ok (.mapping acc, r)
      | _ => .error .grammar
    | _ => .error .grammar
  | _ + 1, _, _ => .error .grammar

end

/-- The value a text spells, with nothing but white space around it. -/
def document (cs : List Char) : Except Refusal Value := do
  let (v, rest) ← value (2 * cs.length + 2) (skip cs)
  if (skip rest).isEmpty then return v else .error .grammar

def document? (cs : List Char) : Option Value := (document cs).toOption

/-- The items of a text that spells a list. -/
def list (cs : List Char) : Except Refusal (List Value) := do
  match ← document cs with
  | .list items => return items
  | _ => .error .grammar

end LayerStack.Value.Reader
