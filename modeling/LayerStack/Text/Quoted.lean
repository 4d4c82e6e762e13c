import LayerStack.Text.Printable

/-!
# LayerStack.Text.Quoted

A text between quotes.

The quote is `'`, or `"` when the text holds a `'` and no `"`.  The quote itself and the backslash are preceded by
a backslash, tab, line feed and carriage return are written `\t`, `\n` and `\r`, and any other character that is
not printable by its code point: `\xhh`, `\uhhhh` or `\Uhhhhhhhh`.
-/

namespace LayerStack.Text

/-- A code point in lower-case hexadecimal, padded to a width. -/
def hex (width n : Nat) : String :=
  let digits := String.ofList (Nat.toDigits 16 n)
  "".pushn '0' (width - digits.length) ++ digits

/-- One character inside a pair of quotes. -/
def quotedChar (quote c : Char) : String :=
  if c = quote ∨ c = '\\' then String.ofList ['\\', c]
  else if c = '\t' then "\\t"
  else if c = '\n' then "\\n"
  else if c = '\r' then "\\r"
  else if isPrintable c then c.toString
  else if c.toNat < 0x100 then "\\x" ++ hex 2 c.toNat
  else if c.toNat < 0x10000 then "\\u" ++ hex 4 c.toNat
  else "\\U" ++ hex 8 c.toNat

/-- The text between quotes. -/
def quoted (s : String) : String :=
  let quote := if s.contains '\'' && !s.contains '"' then '"' else '\''
  quote.toString ++ String.join (s.toList.map (quotedChar quote)) ++ quote.toString

end LayerStack.Text
