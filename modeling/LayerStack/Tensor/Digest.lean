import LayerStack.Tensor.Any

/-!
# LayerStack.Tensor.Digest

Tensors in brief.

A small tensor is shown whole.  Of a large one there are the first and the last entries and three sums, which tell most
tensors apart: of the entries, of their absolute values, and of the entries weighted by one to seven in turn.
-/

namespace LayerStack

/-- What is shown of the entries of a tensor. -/
inductive Digest (α : Type) where
  | whole (entries : Array α)
  | part (first last : Array α) (sum size weighted : α)
deriving Repr

namespace Digest

variable {α : Type}

/-- The most entries that are shown whole. -/
def wholeLimit : Nat := 256

/-- The number of entries shown at each end of a large tensor. -/
def endLength : Nat := 16

/-- The sum of the entries, each weighted by its place counted from one to seven and again. -/
def weightedSum [Zero α] [Add α] [Mul α] [NatCast α] (entries : Array α) : α :=
  (entries.foldl (fun (total, i) x => (total + x * ((i % 7 + 1 : Nat) : α), i + 1)) ((0 : α), 0)).1

/-- A tensor in brief. -/
def ofTensor [Scalar α] (x : AnyTensor α) : Digest α :=
  let entries := x.toArray
  if entries.size ≤ wholeLimit then .whole entries
  else .part (entries.take endLength) (entries.drop (entries.size - endLength)) (entries.foldl (· + ·) 0)
    (entries.foldl (fun total x => total + Scalar.abs x) 0) (weightedSum entries)

end Digest

end LayerStack
