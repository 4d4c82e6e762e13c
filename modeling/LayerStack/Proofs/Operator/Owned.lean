import LayerStack.Proofs.Operator.Change
import LayerStack.Proofs.Operator.Pass

/-!
# LayerStack.Proofs.Operator.Owned

The tensors an operator owns.

No pass touches them: after a forward pass and after a way back an operator has the very tensors it had, of each sort,
whether the pass succeeds or not (`sorts_forward`, `sorts_backward`).  A change gives the parameters new entries on the
axes they had.
-/

namespace LayerStack

variable {α : Type}

open NamedTensors

namespace Operator

/-! ## The tensors of an operator -/

/-- All tensors of an operator: parameters, frozen weights and constants. -/
def tensors (o : Operator α) : NamedTensors α := o.parameters ++ o.frozen ++ o.constants

/-- The axes of the tensors of an operator. -/
def owned (o : Operator α) : List Dims := o.tensors.map fun (_, x) => x.dims

theorem owned_eq (o : Operator α) : o.owned = (axes o.tensors).map (·.2) := by
  rw [owned, axes, List.map_map]
  rfl

/-- The tensors of an operator by their sorts. -/
def sorts (o : Operator α) : NamedTensors α × NamedTensors α × NamedTensors α := (o.parameters, o.frozen, o.constants)

section Passes

variable [Scalar α]

theorem sorts_forward (training : Bool) (x : AnyTensor α) (o : Operator α) (stream : Stream) :
    (o.forward training x stream).1.2.sorts = o.sorts := by
  cases o with
  | dense c | conv2d c | layerNorm c | embedding c | positions c | attention c | feedForward c | transformerBlock c =>
      simp [forward, sorts, parameters, frozen, constants, run_bind, run_pure]
  | maxPool2D grid trace =>
      cases hpool : grid.poolBatch x with
      | error e =>
          simp only [forward, hpool]
          rfl
      | ok result =>
          simp only [forward, hpool]
          rfl
  | dropout rate mask =>
      cases hactive : Dropout.isActive training rate with
      | true =>
          simp only [forward, hactive]
          rfl
      | false =>
          simp only [forward, hactive]
          rfl
  | flatten dims | average dims | undefined => rfl

theorem sorts_backward (g : AnyTensor α) (o : Operator α) : (o.backward g).2.sorts = o.sorts := by
  cases o with
  | dense c | conv2d c | layerNorm c | attention c | feedForward c | transformerBlock c =>
      simp [backward, sorts, parameters, frozen, constants]
  | embedding c =>
      rw [backward, backwardEmbedding]
      split
      · rfl
      · split <;> rfl
  | positions c =>
      rw [backward, backwardPositions]
      split
      · simp [sorts, parameters, frozen, constants]
      · rfl
  | maxPool2D grid trace => cases trace <;> rfl
  | dropout rate mask => cases mask <;> rfl
  | flatten dims | average dims => cases dims <;> rfl
  | undefined => rfl

end Passes

theorem axes_tensors_change (f : TensorChange α) (o : Operator α) : axes (o.change f).tensors = axes o.tensors := by
  simp only [tensors, axes_append, parameters_change, frozen_change, constants_change, axes_changed]

/-- What an operator owns is known from the tensors of each sort. -/
theorem owned_of_sorts {o o' : Operator α} (h : o'.sorts = o.sorts) : o'.owned = o.owned := by
  simp only [sorts, Prod.mk.injEq] at h
  rw [owned, owned, tensors, tensors, h.1, h.2.1, h.2.2]

theorem owned_forward [Scalar α] (training : Bool) (x : AnyTensor α) (o : Operator α) (stream : Stream) :
    (o.forward training x stream).1.2.owned = o.owned := owned_of_sorts (sorts_forward training x o stream)

theorem owned_backward [Scalar α] (g : AnyTensor α) (o : Operator α) : (o.backward g).2.owned = o.owned :=
  owned_of_sorts (sorts_backward g o)

theorem owned_change (f : TensorChange α) (o : Operator α) : (o.change f).owned = o.owned := by
  rw [owned_eq, owned_eq, axes_tensors_change]

/-! ## Counts -/

/-- The number of tensors of an operator: parameters, frozen weights and constants. -/
def tensorCount (o : Operator α) : Nat := o.parameters.length + o.frozen.length + o.constants.length

/-- The number of entries of the tables that are no weights. -/
def constantCount (o : Operator α) : Nat := entryCount o.constants

theorem length_owned (o : Operator α) : o.owned.length = o.tensorCount := by
  rw [owned, List.length_map, tensors, List.length_append, List.length_append, tensorCount]

theorem entryCount_eq (tensors : NamedTensors α) :
    entryCount tensors = ((tensors.map fun (_, x) => x.dims).map Dims.volume).sum := by
  induction tensors with
  | nil => rfl
  | cons p tensors ih =>
      rw [List.map_cons, List.map_cons, List.sum_cons, ← ih]
      rfl

theorem sum_volume_owned (o : Operator α) : (o.owned.map Dims.volume).sum = o.totalCount + o.constantCount := by
  rw [owned, ← entryCount_eq, tensors, totalCount, trainableCount, constantCount]
  simp only [entryCount_eq, List.map_append, List.sum_append]

end Operator

end LayerStack
