import LayerStack.Tensor.Any

/-!
# LayerStack.Tensor.Samples

Samples of one shape, in order.

A tensor with at least one axis is a run of samples along the first of them.  Samples are picked by index, so inputs and
labels that are picked with the same indices stay paired.
-/

namespace LayerStack

/-- Samples of one shape, in order. -/
structure Samples (α : Type) where
  sample : Dims
  items : Array (Tensor α sample)

namespace Samples

variable {α : Type}

def length (x : Samples α) : Nat := x.items.size

/-- The tensor with the samples along its first axis. -/
def toTensor (x : Samples α) : AnyTensor α := ⟨x.items.size :: x.sample, ⟨x.items, rfl⟩⟩

/-- The samples along the first axis, if there is one. -/
def ofTensor? : AnyTensor α → Option (Samples α)
  | ⟨[], _⟩ => none
  | ⟨_ :: s, x⟩ => some ⟨s, Vector.toArray x⟩

theorem ofTensor?_toTensor (x : Samples α) : ofTensor? x.toTensor = some x := rfl

/-- The first `n` samples, or all if there are fewer. -/
def take (x : Samples α) (n : Nat) : Samples α := ⟨x.sample, x.items.take n⟩

/-- The samples after the first `n`. -/
def drop (x : Samples α) (n : Nat) : Samples α := ⟨x.sample, x.items.drop n⟩

/-- The samples at some indices, in the order of the indices. -/
def pick (x : Samples α) (indices : List Nat) : Samples α :=
  ⟨x.sample, (indices.filterMap fun i => x.items[i]?).toArray⟩

/-- The same entries as samples of another shape; samples there are none of take any shape. -/
def reshape? [Zero α] (x : Samples α) (s : Dims) : Option (Samples α) :=
  if Dims.volume s = Dims.volume x.sample ∨ x.length = 0 then some ⟨s, x.items.map fun a => a.reshape s⟩ else none

end Samples

end LayerStack
