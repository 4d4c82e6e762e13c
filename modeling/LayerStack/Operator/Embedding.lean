import LayerStack.Layer.Initializer
import LayerStack.Operator.Parameters
import LayerStack.Value.Share

/-!
# LayerStack.Operator.Embedding

Tables of rows: token embeddings and position encodings.

A table is read by row.  On the way back every use of a row adds its gradient to that row, so a row used twice gets
both.
-/

namespace LayerStack

namespace Tensor

variable {α : Type} {n : Nat} {s : Dims}

/-- Adds a tensor to one row. -/
def addAt [Add α] (x : Tensor α (n :: s)) (i : Fin n) (y : Tensor α s) : Tensor α (n :: s) :=
  Vector.set x i (Tensor.add (x.row i) y) i.isLt

/-- The first rows. -/
def firstRows {m : Nat} (x : Tensor α (n :: s)) (h : m ≤ n) : Tensor α (m :: s) :=
  ofFn fun i => x.row (i.castLE h)

end Tensor

/-! ## Token embeddings -/

/-- A table with a row for every token. -/
structure Embedding (α : Type) (vocabulary width : Nat) where
  trainable : Bool
  table : Tensor α [vocabulary, width]

namespace Embedding

variable {α : Type} {v d : Nat}

/-- The tokens of a tensor of whole numbers. -/
def tokens? [Scalar α] (x : AnyTensor α) : Except RunError (AnyTensor Int) :=
  let whole := x.map Scalar.whole?
  if whole.value.foldl (fun ok n => ok && n.isSome) true then .ok (whole.map fun n => Word.narrow (n.getD 0))
  else .error .notTokens

/-- The tokens as rows of the table, if the table has them all. -/
def inRange? (vocabulary : Nat) (tokens : AnyTensor Int) : Except RunError (AnyTensor (Fin vocabulary)) :=
  match tokens.traverse? fun (n : Int) => if h : 0 ≤ n ∧ n < vocabulary then some ⟨n.toNat, by omega⟩ else none with
  | some tokens => .ok tokens
  | none => .error (outOfRange tokens)
where
  outOfRange (tokens : AnyTensor Int) : RunError :=
    let all := tokens.toArray
    let first := all.getD 0 0
    .tokenRange (.int vocabulary) (all.foldl min first) (all.foldl max first)

/-- The rows of some tokens. -/
def lookup (e : Embedding α v d) (tokens : AnyTensor (Fin v)) : AnyTensor (Tensor α [d]) := tokens.map e.table.row

/-- The rows of a tensor of tokens, and the tokens. -/
def forwardBatch [Scalar α] (e : Embedding α v d) (x : AnyTensor α) :
    Except RunError (AnyTensor α × AnyTensor (Fin v)) := do
  let tokens ← tokens? x
  let tokens ← inRange? v tokens
  return ((e.lookup tokens).join, tokens)

/-- The gradient of the table: every use of a row adds to it. -/
def gradient [Zero α] [Add α] {lead : Dims} (uses : Tensor (Fin v × Tensor α [d]) lead) : Tensor α [v, d] :=
  uses.foldl (fun table use => table.addAt use.1 use.2) (Tensor.zeros [v, d])

/-- A row for every token: those of a tensor in row-major order, or its only one for all. -/
def rows? [Zero α] (lead : Dims) (x : AnyTensor α) : Option (AnyTensor (Tensor α [d])) := do
  let rows ← x.cut? [d]
  match rows.regroup? lead, rows.toArray with
  | some rows, _ => return rows
  | none, #[row] => return ⟨lead, Tensor.fill row lead⟩
  | none, _ => none

/-- The gradient of the table from a batch, in real numbers, where the table is trained.  Tokens have no gradient:
theirs is zero. -/
def backwardBatch [Zero α] [Add α] [NatCast α] (e : Embedding α v d) (tokens : AnyTensor (Fin v))
    (cotangent : AnyTensor α) : Except RunError (AnyTensor α × Option (Tensor α [v, d])) := do
  let zeros : AnyTensor α := tokens.map fun _ => 0
  if e.trainable then
    let rows ← RunError.fit (rows? tokens.dims (cotangent.map Scalar.real))
    let uses ← RunError.fit (tokens.zipWith? Prod.mk rows)
    return (zeros, some (gradient uses.value))
  else return (zeros, none)

/-- A fresh table. -/
def draw [Scalar α] (trainable : Bool) (v d : Nat) : Draw (Embedding α v d) := do
  let table ← Draw.tensor Draw.spread [v, d]
  let scale : α := 1 / Elementary.sqrt (d : α)
  return ⟨trainable, table.map (· * scale)⟩

end Embedding

/-! ## Position encodings -/

/-- A table with a row for every position, added to the front of a sequence. -/
structure PositionTable (α : Type) (length width : Nat) where
  learned : Bool
  /-- The length of the longest sequence. -/
  greatest : Number
  /-- The width of the rows it is added to. -/
  fits : Number
  table : Tensor α [length, width]

namespace PositionTable

variable {α : Type} {n d : Nat}

/-- The fixed table of waves: in column `i` the sine (`i` even) or cosine (`i` odd) of the position over
`10000 ^ (2⌊i/2⌋ / width)`. -/
def waves [Scalar α] (width : α) (n d : Nat) : Tensor α [n, d] :=
  Tensor.ofMatrix fun p i =>
    let power : α := ((2 * (i.val / 2) : Nat) : α) / width
    let angle : α := (p.val : α) * (1 / Elementary.pow ((10000 : Nat) : α) power)
    if i.val % 2 = 0 then Elementary.sin angle else Elementary.cos angle

/-- As many rows or columns as there are whole numbers from zero up to a bound. -/
def room (bound : Number) : Nat := (bound.ceiling?.getD 0).toNat

/-- The fixed table for some positions and a width. -/
def fixed [Scalar α] (length width : Number) : AnyTensor α :=
  ⟨[room length, room width], waves (Scalar.ofNumber width.widened) _ _⟩

/-- The first rows of the table. -/
def upTo? (p : PositionTable α n d) (length : Nat) : Except RunError (Tensor α [length, d]) :=
  if h : length ≤ n then .ok (p.table.firstRows h) else .error .mismatch

/-- The rows for a sequence. -/
def encoding? (p : PositionTable α n d) (length : Nat) : Except RunError (Tensor α [length, d]) :=
  if Number.lt p.greatest (.int length) then .error (.tooLong (.int length) (.ofNumber p.greatest))
  else p.upTo? length

/-- The rows for a length; one below zero says how many rows are left off at the end. -/
def rows? (p : PositionTable α n d) (length : Value) : Except RunError (AnyTensor α) :=
  if length.quantity?.any (Number.lt p.greatest) then .error (.tooLong length (.ofNumber p.greatest))
  else
    match length.quantity? with
    | some (.int length) => do
      let length := (if length < 0 then n + length else length).toNat
      return ⟨[length, d], ← p.upTo? length⟩
    | _ => .error .illTyped

/-- The gradient of the table from one sequence: its rows, and zeros beyond. -/
def gradient [Zero α] {length : Nat} (cotangent : Tensor α [length, d]) : Tensor α [n, d] :=
  Tensor.ofFn fun i => if h : i.val < length then cotangent.row ⟨i.val, h⟩ else Tensor.zeros [d]

/-- The sequences of a batch with the table added, and their length. -/
def forwardBatch [Add α] (p : PositionTable α n d) (x : AnyTensor α) : Except RunError (AnyTensor α × Nat) :=
  if Number.compare? (.int x.lastAxis) p.fits = some .eq then
    match x.dims.reverse with
    | _ :: length :: _ => do
      let rows ← p.encoding? length
      let sequences ← RunError.fit (x.blocks? [length, d])
      return ((sequences.map fun s => s.add rows).join, length)
    | _ => .error .mismatch
  else .error (.encodingWidth (.ofNumber p.fits) x.lastAxis)

/-- The gradient of the table from a batch. -/
def gradientBatch [Zero α] [Add α] (length : Nat) (cotangent : AnyTensor α) : Except RunError (Tensor α [n, d]) := do
  let sequences ← RunError.fit (cotangent.cut? [length, d])
  let gradients := sequences.map fun g => gradient (n := n) g
  return gradients.value.foldl Tensor.add (Tensor.zeros [n, d])

/-- A fresh table. -/
def draw [Scalar α] (encoding : EncodingType) (greatest width : Number) :
    Draw (PositionTable α (room greatest) (room width)) :=
  match encoding with
  | .learned => do
    return ⟨true, greatest, width, ← Initializer.weights .randomUniform _ (.ofNumber greatest) (.ofNumber width)⟩
  | .sinusoidal => pure ⟨false, greatest, width, waves (Scalar.ofNumber width.widened) _ _⟩

end PositionTable

end LayerStack
