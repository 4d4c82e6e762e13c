import LayerStack.Model

/-!
# LayerStack.Model.Summary

A model as a table: its layers, their output shapes and the number of their weights.

Every column is two wider than its widest cell.  Totals stand below the table, their thousands set apart by commas.
-/

namespace LayerStack

/-! ## Numbers -/

/-- Digits in groups of three from the right, separated by commas. -/
def groupDigits : List Char → List Char
  | [] => []
  | c :: rest => if rest ≠ [] ∧ rest.length % 3 = 0 then c :: ',' :: groupDigits rest else c :: groupDigits rest

/-- A number with its thousands set apart. -/
def thousandsText (n : Nat) : String := String.ofList (groupDigits (toString n).toList)

/-! ## Tables -/

/-- A row of three cells. -/
structure SummaryRow where
  layer : String
  shape : String
  count : String
deriving Repr

namespace SummaryRow

/-- A text followed by spaces up to a width. -/
def padded (width : Nat) (s : String) : String := s ++ "".pushn ' ' (width - s.length)

/-- The width of a column. -/
def width (rows : List SummaryRow) (cell : SummaryRow → String) : Nat :=
  (rows.map fun r => (cell r).length).foldl max 0 + 2

/-- The lines of a table: its first row, a rule, the other rows, a rule. -/
def table (header : SummaryRow) (rows : List SummaryRow) : List String :=
  let all := header :: rows
  let layer := width all (·.layer)
  let shape := width all (·.shape)
  let count := width all (·.count)
  let line (r : SummaryRow) := padded layer r.layer ++ padded shape r.shape ++ padded count r.count
  let rule := "".pushn '=' (layer + shape + count)
  [line header, rule] ++ rows.map line ++ [rule]

end SummaryRow

namespace Model

variable {α : Type}

/-- A shape of one sample as that of a batch of any length. -/
def batchText (shape : Shape) : String := bracketed "[" ("None" :: shape.map toString) "]"

/-- How a layer is named in a table. -/
def layerLabel (layer : ResolvedLayer) : String :=
  let name := if layer.record.name.isEmpty then tensorPrefix layer else layer.record.name
  s!"{name} ({layer.type.tag})"

/-- The rows of the table below its header. -/
def summaryRows (m : Model α) : List SummaryRow :=
  ⟨"input (input)", batchText m.plan.declared, "0"⟩ ::
    (m.plan.layers.zip m.operators).map fun (layer, o) =>
      ⟨layerLabel layer, batchText layer.output, toString o.totalCount⟩

/-- The table and the totals. -/
def summaryText (m : Model α) : String :=
  "\n".intercalate (SummaryRow.table ⟨"Layer (type)", "Output Shape", "Param #"⟩ m.summaryRows ++ [
    "Total params: " ++ thousandsText m.total,
    "Trainable params: " ++ thousandsText m.trainable,
    "Non-trainable params: " ++ thousandsText (m.total - m.trainable)])

/-- The summary of a model that has not been disposed of. -/
def summary (m : Model α) : Except RunError String := summaryText <$> m.live

end Model

end LayerStack
