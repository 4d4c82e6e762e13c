import LayerStack.Tensor.Stretch

/-!
# LayerStack.Tensor.Any

Tensors whose axes are known only when they arrive.

Batches, labels and gradients come from outside with axes of their own.  `blocks?` reads such a tensor as a family of
tensors of given axes along whatever axes come first; a layer then works on the members, and `join` makes one tensor of
them again.  Where two tensors meet, both are stretched to their common axes (`zipWith?`); on equal axes that is no
change (`zipWith?_mk`).
-/

namespace LayerStack

/-- A tensor together with its axes. -/
structure AnyTensor (α : Type) where
  dims : Dims
  value : Tensor α dims

namespace AnyTensor

variable {α β γ : Type} {s : Dims}

def rank (x : AnyTensor α) : Nat := x.dims.length

/-- The number of entries. -/
def size (x : AnyTensor α) : Nat := Dims.volume x.dims

/-- The length of the last axis; a tensor without axes counts as one entry long. -/
def lastAxis (x : AnyTensor α) : Nat := x.dims.getLastD 1

/-- The tensor with the given entries in row-major order. -/
def ofArray [Zero α] (s : Dims) (entries : Array α) : AnyTensor α := ⟨s, Tensor.ofArray s entries⟩

def toArray (x : AnyTensor α) : Array α := x.value.toArray

def map (f : α → β) (x : AnyTensor α) : AnyTensor β := ⟨x.dims, x.value.map f⟩

def foldl (f : β → α → β) (init : β) (x : AnyTensor α) : β := x.value.foldl f init

/-- Is it a tensor of words? -/
def isWords [Scalar α] (x : AnyTensor α) : Bool := x.foldl (fun found a => found || Scalar.isWord a) false

/-- The same entries in row-major order along other axes. -/
def reshape [Zero α] (x : AnyTensor α) (s : Dims) : AnyTensor α := ⟨s, x.value.reshape s⟩

/-- The value, if the axes are the given ones. -/
def as? (x : AnyTensor α) (s : Dims) : Option (Tensor α s) := if h : x.dims = s then some (h ▸ x.value) else none

/-- The tensor repeated to fit the given axes. -/
def spread? (x : AnyTensor α) (t : Dims) : Option (Tensor α t) := x.value.stretch? t

/-- Combines two tensors on the axes they stretch to. -/
def zipWith? (f : α → β → γ) (x : AnyTensor α) (y : AnyTensor β) : Option (AnyTensor γ) := do
  let t ← Dims.common? x.dims y.dims
  return ⟨t, (← x.spread? t).zipWith f (← y.spread? t)⟩

theorem zipWith?_mk (f : α → β → γ) (x : Tensor α s) (y : Tensor β s) :
    zipWith? f ⟨s, x⟩ ⟨s, y⟩ = some ⟨s, x.zipWith f y⟩ := by
  simp [zipWith?, spread?, Dims.common?_self, Tensor.stretch?_self]

/-- The tensor of the results, if the function has one for every entry. -/
def traverse? (f : α → Option β) (x : AnyTensor α) : Option (AnyTensor β) :=
  (x.value.traverse? f).map fun y => ⟨x.dims, y⟩

/-! ## Families -/

/-- The family of tensors along the first `k` axes. -/
def split (x : AnyTensor α) (k : Nat) : AnyTensor (Tensor α (x.dims.drop k)) :=
  ⟨x.dims.take k, Tensor.blocks (x.dims.take k) ((List.take_append_drop k x.dims).symm ▸ x.value)⟩

/-- The family of tensors of the given last axes. -/
def blocks? (x : AnyTensor α) (s : Dims) : Option (AnyTensor (Tensor α s)) :=
  if h : x.dims.drop (x.rank - s.length) = s then some (h ▸ x.split (x.rank - s.length)) else none

/-- The family of tensors of the last axes, each repeated to fit the given ones. -/
def spreadBlocks? (x : AnyTensor α) (s : Dims) : Option (AnyTensor (Tensor α s)) :=
  (x.split (x.rank - s.length)).traverse? fun block => block.stretch? s

/-- The family of tensors of the given axes along the given leading ones that the tensor is repeated to fit. -/
def spreadFamily? (x : AnyTensor α) (lead s : Dims) : Option (AnyTensor (Tensor α s)) :=
  (x.spread? (lead ++ s)).map fun y => ⟨lead, Tensor.blocks lead y⟩

/-- The family of sequences of rows of width `d`, if the axes are those of a batch of such sequences. -/
def sequences? (x : AnyTensor α) (d : Nat) : Option ((s : Nat) × AnyTensor (Tensor α [s, d])) :=
  match x.dims with
  | [_, s, _] => (x.blocks? [s, d]).map fun xs => ⟨s, xs⟩
  | _ => none

/-- One tensor of a family of them. -/
def join (x : AnyTensor (Tensor α s)) : AnyTensor α := ⟨x.dims ++ s, Tensor.join x.dims x.value⟩

/-- The same family along other axes, in row-major order, if it has as many members there. -/
def regroup? [Zero α] (x : AnyTensor (Tensor α s)) (lead : Dims) : Option (AnyTensor (Tensor α s)) :=
  if x.dims = lead then some x
  else if Dims.volume x.dims = Dims.volume lead then
    (x.join.reshape (lead ++ s)).blocks? s
  else none

/-- The family of tensors of the given axes that the entries make in row-major order.  How many tensors without entries
there are, no entries can tell. -/
def cut? [Zero α] (x : AnyTensor α) (s : Dims) : Option (AnyTensor (Tensor α s)) :=
  let volume := Dims.volume s
  if 0 < volume then
    match x.blocks? s with
    | some xs => some xs
    | none => if x.size % volume = 0 then (x.reshape (x.size / volume :: s)).blocks? s else none
  else none

/-- The sum along the first `k` axes. -/
def sumLeading [Zero α] [Add α] (x : AnyTensor α) (k : Nat) : AnyTensor α :=
  ⟨x.dims.drop k, (x.split k).value.foldl Tensor.add (Tensor.zeros _)⟩

/-! ## Along an axis -/

/-- Applies a function to the tensors that start at an axis, a negative one being counted from the last; to all entries
as one row where no axis is given.  A tensor without axes is a row of one entry. -/
def alongAxis? [Zero α] (axis : Option Int) (f : {n : Nat} → {s : Dims} → Tensor α (n :: s) → Tensor α (n :: s))
    (x : AnyTensor α) : Option (AnyTensor α) :=
  match axis with
  | none => some (AnyTensor.reshape ⟨[x.size], f (x.reshape [x.size]).value⟩ x.dims)
  | some axis =>
    match x with
    | ⟨[], a⟩ => if axis = 0 ∨ axis = -1 then some ⟨[], (f (Tensor.ofEntry a)).toEntry⟩ else none
    | x =>
      let axis := if axis < 0 then axis + x.rank else axis
      if 0 ≤ axis then on (x.dims.drop axis.toNat) (x.split axis.toNat) else none
where
  on : (s : Dims) → AnyTensor (Tensor α s) → Option (AnyTensor α)
    | [], _ => none
    | _ :: _, parts => some (parts.map f).join

/-- What a function makes of every row along the last axis. -/
def foldLast (f : {n : Nat} → Tensor α [n] → β) (x : AnyTensor α) : AnyTensor β := ⟨x.dims.dropLast, x.value.foldLast f⟩

/-- Changes every row along the last axis. -/
def mapLast (f : {n : Nat} → Tensor α [n] → Tensor β [n]) (x : AnyTensor α) : AnyTensor β := ⟨x.dims, x.value.mapLast f⟩

/-- Combines the rows along the last axes of two tensors, on the axes they stretch to. -/
def zipLast? (f : {n : Nat} → Tensor α [n] → Tensor β [n] → Tensor γ [n]) (x : AnyTensor α) (y : AnyTensor β) :
    Option (AnyTensor γ) := do
  let t ← Dims.common? x.dims y.dims
  return ⟨t, (← x.spread? t).zipLast f (← y.spread? t)⟩

end AnyTensor

end LayerStack
