import LayerStack.Text.Quoted
import LayerStack.Value.Text

/-!
# LayerStack.Value.Writer

Values as documents, in the grammar of the reader.

Lists, rows and arrays are written alike; a number is written by its shortest text, and one that is none by its word.  A
key that is not text stands in quotes as it is written by itself.
-/

namespace LayerStack.Value.Writer

/-- A character inside quotes: quotes, backslashes and control characters are escaped. -/
def escaped (c : Char) : String :=
  if c = '"' then "\\\"" else if c = '\\' then "\\\\" else if c.toNat < 0x20 then "\\u" ++ Text.hex 4 c.toNat
  else c.toString

def quoted (s : String) : String := s.foldl (fun text c => text ++ escaped c) "\"" ++ "\""

def number : Binary64 → String
  | .nan => "NaN"
  | .infinite negative => if negative then "-Infinity" else "Infinity"
  | x => x.toText

def scalar : MachineScalar → String
  | .int64 n | .int32 n | .uint64 n => toString n
  | .float64 x | .float32 x => number x
  | .bool b => if b then "true" else "false"

mutual

def document : Value → String
  | .absent => "null"
  | .bool b => if b then "true" else "false"
  | .int n => toString n
  | .float x => number x
  | .text s => quoted s
  | .list items | .row items | .array items => "[" ++ ",".intercalate (documents items) ++ "]"
  | .mapping entries => "\x7b" ++ ",".intercalate (members entries) ++ "\x7d"
  | .scalar x => scalar x

def documents : List Value → List String
  | [] => []
  | v :: vs => document v :: documents vs

def members : List (Value × Value) → List String
  | [] => []
  | (key, v) :: rest =>
    let name := match key with
      | .text s => s
      | key => document key
    (quoted name ++ ":" ++ document v) :: members rest

end

end LayerStack.Value.Writer
