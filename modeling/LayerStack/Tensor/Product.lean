import LayerStack.Tensor.Any

/-!
# LayerStack.Tensor.Product

Matrix products along the last two axes.

Two tensors are families of matrices along whatever axes come first, and those stretch to their common ones.  A row of
numbers alone is a matrix of one row where it is on the left and of one column where it is on the right; the product is
without that axis.
-/

namespace LayerStack.AnyTensor

variable {α : Type}

/-- The lengths of the last two axes. -/
def matrixAxes? (x : AnyTensor α) : Option (Nat × Nat) :=
  match x.dims.reverse with
  | b :: a :: _ => some (a, b)
  | _ => none

/-- The matrices of a tensor transposed. -/
def transpose? (x : AnyTensor α) : Option (AnyTensor α) := do
  let (a, b) ← x.matrixAxes?
  let matrices : AnyTensor (Tensor α [a, b]) ← x.blocks? [a, b]
  return (matrices.map fun m : Tensor α [a, b] => m.transpose).join

variable [Zero α]

/-- The products of the matrices of two tensors. -/
def matrixProduct? [Add α] [Mul α] (x y : AnyTensor α) : Option (AnyTensor α) := do
  let (a, b) ← x.matrixAxes?
  let (_, c) ← y.matrixAxes?
  let left : AnyTensor (Tensor α [a, b]) ← x.blocks? [a, b]
  let right : AnyTensor (Tensor α [b, c]) ← y.blocks? [b, c]
  let products ← left.zipWith? (fun (m : Tensor α [a, b]) (m' : Tensor α [b, c]) => m.product m') right
  return products.join

/-- A tensor without one of its axes, counted from the last, that is of length one. -/
def withoutAxis (x : AnyTensor α) (fromLast : Nat) : AnyTensor α := x.reshape (x.dims.eraseIdx (x.rank - 1 - fromLast))

/-- The matrix product of two tensors, either of which may be a row of numbers. -/
def product? [Add α] [Mul α] (x y : AnyTensor α) : Option (AnyTensor α) := do
  let left := if x.rank = 1 then x.reshape (1 :: x.dims) else x
  let right := if y.rank = 1 then y.reshape (y.dims ++ [1]) else y
  let z ← left.matrixProduct? right
  let z := if x.rank = 1 then z.withoutAxis 1 else z
  return if y.rank = 1 then z.withoutAxis 0 else z

end LayerStack.AnyTensor
