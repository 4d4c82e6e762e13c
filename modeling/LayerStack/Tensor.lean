import LayerStack.Scalar

/-!
# LayerStack.Tensor

Tensors whose axes are part of their type.

A tensor with no axes is a single entry; one with axes is as many tensors of the remaining axes as the first axis is
long.  What a layer does to a sample is a function between two such types, so shapes cannot fail to agree inside a
layer.  The entries of a tensor may themselves be tensors: `blocks` cuts off leading axes, `join` puts them back.
-/

namespace LayerStack

/-- The lengths of the axes of a tensor. -/
abbrev Dims := List Nat

/-- The number of entries of a tensor. -/
def Dims.volume (s : Dims) : Nat := s.foldr (· * ·) 1

/-- A tensor of entries `α`. -/
@[reducible] def Tensor (α : Type) : Dims → Type
  | [] => α
  | n :: s => Vector (Tensor α s) n

namespace Tensor

variable {α β γ : Type} {n m : Nat} {s t : Dims}

/-! ## Along the first axis -/

def ofFn (f : Fin n → Tensor α s) : Tensor α (n :: s) := Vector.ofFn f

def row (x : Tensor α (n :: s)) (i : Fin n) : Tensor α s := Vector.get x i

/-- The entry of a row of numbers. -/
def entry (x : Tensor α [n]) (i : Fin n) : α := Vector.get x i

/-- A row of numbers. -/
def ofEntries (f : Fin n → α) : Tensor α [n] := Vector.ofFn f

def mapRows (f : Tensor α s → Tensor β t) (x : Tensor α (n :: s)) : Tensor β (n :: t) := Vector.map f x

/-! ## Entry by entry -/

/-- The tensor with the same entry everywhere. -/
def fill (a : α) : (s : Dims) → Tensor α s
  | [] => a
  | n :: s => Vector.replicate n (fill a s)

def map (f : α → β) : {s : Dims} → Tensor α s → Tensor β s
  | [], a => f a
  | _ :: _, x => Vector.map (map f) x

/-- The tensor of the results, if the function has one for every entry. -/
def traverse? (f : α → Option β) : {s : Dims} → Tensor α s → Option (Tensor β s)
  | [], a => f a
  | _ :: _, x => Vector.mapM (traverse? f) x

def zipWith (f : α → β → γ) : {s : Dims} → Tensor α s → Tensor β s → Tensor γ s
  | [], a, b => f a b
  | _ :: _, x, y => Vector.zipWith (zipWith f) x y

/-- The pairs of matching entries. -/
def zip {s : Dims} (x : Tensor α s) (y : Tensor β s) : Tensor (α × β) s := zipWith Prod.mk x y

/-- Goes through the entries in row-major order. -/
def foldl (f : β → α → β) (init : β) : {s : Dims} → Tensor α s → β
  | [], a => f init a
  | _ :: _, x => Vector.foldl (fun acc r => foldl f acc r) init x

/-- The entries in row-major order. -/
def toArray (x : Tensor α s) : Array α := x.foldl Array.push #[]

/-- The tensor whose entry at each row-major position is that of a function. -/
def generate (f : Nat → α) : (s : Dims) → Tensor α s
  | [] => f 0
  | n :: s => Vector.ofFn fun i : Fin n => generate (fun k => f (i * Dims.volume s + k)) s

/-- The tensor with the given entries in row-major order; missing ones are zero. -/
def ofArray [Zero α] (s : Dims) (entries : Array α) : Tensor α s := generate (fun k => entries.getD k 0) s

/-- The same entries in row-major order along other axes. -/
def reshape [Zero α] (t : Dims) (x : Tensor α s) : Tensor α t := ofArray t x.toArray

/-! ## Arithmetic -/

def add [Add α] (x y : Tensor α s) : Tensor α s := zipWith (· + ·) x y

def zeros [Zero α] (s : Dims) : Tensor α s := fill 0 s

/-- The sum of all entries. -/
def total [Zero α] [Add α] (x : Tensor α s) : α := x.foldl (· + ·) 0

/-- Combines the tensors along the first axis; `empty` stands everywhere where there are none. -/
def reduce (f : α → α → α) (empty : α) : {n : Nat} → Tensor α (n :: s) → Tensor α s
  | 0, _ => fill empty s
  | _ + 1, x => Fin.foldl _ (fun acc i => zipWith f acc (x.row i.succ)) (x.row 0)

/-- The sum along the first axis. -/
def sumRows [Zero α] [Add α] (x : Tensor α (n :: s)) : Tensor α s := reduce (· + ·) 0 x

/-- The sum of the products of matching entries. -/
def dot [Zero α] [Add α] [Mul α] (x y : Tensor α [n]) : α := Scalar.sum n fun i => x.entry i * y.entry i

/-! ## Along the last axis

A tensor without axes is a row of one entry. -/

/-- A row of one entry. -/
def ofEntry (a : α) : Tensor α [1] := ofEntries fun _ => a

/-- The entry of a row of one entry. -/
def toEntry (x : Tensor α [1]) : α := x.entry 0

/-- What a function makes of every row along the last axis. -/
def foldLast (f : {n : Nat} → Tensor α [n] → β) : {s : Dims} → Tensor α s → Tensor β s.dropLast
  | [], a => f (ofEntry a)
  | [_], x => f x
  | _ :: _ :: _, x => Vector.map (foldLast f) x

/-- Changes every row along the last axis. -/
def mapLast (f : {n : Nat} → Tensor α [n] → Tensor β [n]) : {s : Dims} → Tensor α s → Tensor β s
  | [], a => (f (ofEntry a)).toEntry
  | [_], x => f x
  | _ :: _ :: _, x => Vector.map (mapLast f) x

/-- Combines the rows along the last axes of two tensors. -/
def zipLast (f : {n : Nat} → Tensor α [n] → Tensor β [n] → Tensor γ [n]) :
    {s : Dims} → Tensor α s → Tensor β s → Tensor γ s
  | [], a, b => (f (ofEntry a) (ofEntry b)).toEntry
  | [_], x, y => f x y
  | _ :: _ :: _, x, y => Vector.zipWith (zipLast f) x y

/-! ## Matrices -/

/-- A matrix by its entries. -/
def ofMatrix (f : Fin n → Fin m → α) : Tensor α [n, m] := ofFn fun i => ofEntries fun j => f i j

def transpose (x : Tensor α [n, m]) : Tensor α [m, n] := ofMatrix fun j i => (x.row i).entry j

/-- The matrix product. -/
def product [Zero α] [Add α] [Mul α] {k : Nat} (x : Tensor α [n, k]) (y : Tensor α [k, m]) : Tensor α [n, m] :=
  ofMatrix fun i j => Scalar.sum k fun l => (x.row i).entry l * (y.row l).entry j

/-- A matrix applied to a row of numbers. -/
def apply [Zero α] [Add α] [Mul α] (w : Tensor α [m, n]) (x : Tensor α [n]) : Tensor α [m] :=
  ofEntries fun i => (w.row i).dot x

/-- The transposed matrix applied to a row of numbers. -/
def applyTransposed [Zero α] [Add α] [Mul α] (w : Tensor α [m, n]) (y : Tensor α [m]) : Tensor α [n] :=
  ofEntries fun j => Scalar.sum m fun i => y.entry i * (w.row i).entry j

/-- The products of all pairs of entries. -/
def outer [Mul α] (y : Tensor α [m]) (x : Tensor α [n]) : Tensor α [m, n] :=
  ofMatrix fun i j => y.entry i * x.entry j

/-! ## Leading axes -/

/-- Cuts off the leading axes: a tensor of tensors. -/
def blocks : (lead : Dims) → Tensor α (lead ++ s) → Tensor (Tensor α s) lead
  | [], x => x
  | _ :: lead, x => Vector.map (blocks lead) x

/-- Puts leading axes back. -/
def join : (lead : Dims) → Tensor (Tensor α s) lead → Tensor α (lead ++ s)
  | [], x => x
  | _ :: lead, x => Vector.map (join lead) x

theorem join_blocks : (lead : Dims) → (x : Tensor α (lead ++ s)) → join lead (blocks lead x) = x
  | [], _ => rfl
  | n :: lead, (x : Vector (Tensor α (lead ++ s)) n) => by
    show Vector.map (join lead) (Vector.map (blocks lead) x) = x
    rw [Vector.map_map]
    conv => rhs; rw [← Vector.map_id x]
    exact Vector.map_congr_left fun y _ => join_blocks lead y

theorem blocks_join : (lead : Dims) → (x : Tensor (Tensor α s) lead) → blocks lead (join lead x) = x
  | [], _ => rfl
  | n :: lead, (x : Vector (Tensor (Tensor α s) lead) n) => by
    show Vector.map (blocks lead) (Vector.map (join lead) x) = x
    rw [Vector.map_map]
    conv => rhs; rw [← Vector.map_id x]
    exact Vector.map_congr_left fun y _ => blocks_join lead y

end Tensor

end LayerStack
