import LayerStack.Proofs.Entries
import LayerStack.Proofs.Operator.Names
import LayerStack.Proofs.Tensor.Family
import Mathlib.Data.List.Nodup

/-!
# LayerStack.Proofs.Operator.Gradient

Gradients have the names and the axes of the weights.

Weights and their gradients are values of one type, and what can differ between two of them is which optional tensors
are there.  Sums of gradients start from zeros made after the weights, and adding keeps what is there, so a sum has a
tensor for each of the weights and no other (`axes_sum`, for every kind of weights).
-/

namespace LayerStack

variable {α : Type}

/-! ## Names and axes -/

namespace NamedTensors

/-- The axes of named tensors. -/
def axes (named : NamedTensors α) : List (String × Dims) := named.map fun (name, x) => (name, x.dims)

@[simp] theorem axes_nil : axes ([] : NamedTensors α) = [] := rfl

@[simp] theorem axes_cons (name : String) (x : AnyTensor α) (named : NamedTensors α) :
    axes ((name, x) :: named) = (name, x.dims) :: axes named := rfl

@[simp] theorem axes_append (named named' : NamedTensors α) : axes (named ++ named') = axes named ++ axes named' :=
  List.map_append

@[simp] theorem axes_withPrefix (first : String) (named : NamedTensors α) :
    axes (withPrefix first named) = withPrefix first (axes named) := by
  simp [axes, withPrefix]

theorem names_axes (named : NamedTensors α) : names (axes named) = names named := by
  simp [names, axes]

/-- New tensors on the axes of the old ones leave the axes as they are. -/
theorem axes_update {named new : NamedTensors α} (hnodup : (names named).Nodup) (hnew : axes new ⊆ axes named) :
    axes (named.update new) = axes named := by
  rw [axes, update, List.map_map]
  refine List.map_congr_left fun (name, x) hx => ?_
  simp only [Function.comp_apply, Prod.mk.injEq, true_and]
  cases hlookup : new.lookup name with
  | none => rfl
  | some y =>
      have hold : (name, x.dims) ∈ axes named := List.mem_map_of_mem hx
      have hmem : (name, y.dims) ∈ axes named := hnew (List.mem_map_of_mem (Entries.mem_of_lookup hlookup))
      rw [← names_axes] at hnodup
      exact (Prod.mk.inj (List.inj_on_of_nodup_map hnodup hmem hold rfl)).2

end NamedTensors

open NamedTensors

/-- What is added up has the axes of what it is added to. -/
theorem axes_foldl {W : Type} [Weights W α] {add : W → W → W}
    (hadd : ∀ a b, axes (Weights.named (add a b)) = axes (Weights.named a)) {lead : Dims} (gradients : Tensor W lead)
    (start : W) : axes (Weights.named (gradients.foldl add start)) = axes (Weights.named start) :=
  Tensor.foldl_induction (P := fun w => axes (Weights.named w) = axes (Weights.named start))
    (fun a b ha => (hadd a b).trans ha) gradients rfl

/-! ## Sums of gradients -/

namespace Affine

variable {m n : Nat}

@[simp] theorem axes_add [Add α] (a b : Affine α m n) : axes (Weights.named (a.add b)) = axes (Weights.named a) := by
  obtain ⟨weight, _ | bias⟩ := a
  · rfl
  · obtain ⟨weight', _ | bias'⟩ := b <;> rfl

@[simp] theorem axes_zeroLike [Zero α] (a : Affine α m n) :
    axes (Weights.named a.zeroLike) = axes (Weights.named a) := by
  obtain ⟨weight, _ | bias⟩ := a <;> rfl

theorem axes_sum [Zero α] [Add α] (a : Affine α m n) {lead : Dims} (gradients : Tensor (Affine α m n) lead) :
    axes (Weights.named (a.sum gradients)) = axes (Weights.named a) :=
  (axes_foldl axes_add gradients _).trans a.axes_zeroLike

end Affine

namespace Kernel

variable {z : ConvSizes}

theorem axes_add [Add α] (a b : Kernel α z) : axes (Weights.named (a.add b)) = axes (Weights.named a) := by
  obtain ⟨weight, _ | bias⟩ := a
  · rfl
  · obtain ⟨weight', _ | bias'⟩ := b <;> rfl

theorem axes_sum [Zero α] [Add α] (k : Kernel α z) {lead : Dims} (gradients : Tensor (Kernel α z) lead) :
    axes (Weights.named (k.sum gradients)) = axes (Weights.named k) := by
  refine (axes_foldl axes_add gradients _).trans ?_
  obtain ⟨weight, _ | bias⟩ := k <;> rfl

end Kernel

namespace ScaleShift

variable {s : Dims}

@[simp] theorem axes_add [Add α] (a b : ScaleShift α s) : axes (Weights.named (a.add b)) = axes (Weights.named a) := by
  obtain ⟨_ | gamma, _ | beta⟩ := a <;> obtain ⟨_ | gamma', _ | beta'⟩ := b <;> rfl

@[simp] theorem axes_zeroLike [Zero α] (p : ScaleShift α s) :
    axes (Weights.named p.zeroLike) = axes (Weights.named p) := by
  obtain ⟨_ | gamma, _ | beta⟩ := p <;> rfl

end ScaleShift

namespace FeedForwardWeights

variable {d f : Nat}

theorem axes_named (w : FeedForwardWeights α d f) : axes (Weights.named w) =
    withPrefix "linear1" (axes (Weights.named w.linear1)) ++ withPrefix "linear2" (axes (Weights.named w.linear2)) := by
  simp only [← axes_withPrefix, ← axes_append]
  rfl

@[simp] theorem axes_add [Add α] (a b : FeedForwardWeights α d f) :
    axes (Weights.named (a.add b)) = axes (Weights.named a) := by
  simp [axes_named, add]

@[simp] theorem axes_zeroLike [Zero α] (w : FeedForwardWeights α d f) :
    axes (Weights.named w.zeroLike) = axes (Weights.named w) := by
  simp [axes_named, zeroLike]

end FeedForwardWeights

namespace AttentionWeights

variable {d h k v : Nat}

theorem axes_named (w : AttentionWeights α d h k v) : axes (Weights.named w) =
    withPrefix "query" (axes (Weights.named w.query)) ++ withPrefix "key" (axes (Weights.named w.key))
      ++ withPrefix "value" (axes (Weights.named w.value)) ++ withPrefix "output" (axes (Weights.named w.output)) := by
  simp only [← axes_withPrefix, ← axes_append]
  rfl

@[simp] theorem axes_add [Add α] (a b : AttentionWeights α d h k v) :
    axes (Weights.named (a.add b)) = axes (Weights.named a) := by
  simp [axes_named, add]

@[simp] theorem axes_zeroLike [Zero α] (w : AttentionWeights α d h k v) :
    axes (Weights.named w.zeroLike) = axes (Weights.named w) := by
  simp [axes_named, zeroLike]

theorem axes_sum [Zero α] [Add α] (w : AttentionWeights α d h k v) {lead : Dims}
    (gradients : Tensor (AttentionWeights α d h k v) lead) :
    axes (Weights.named (w.sum gradients)) = axes (Weights.named w) :=
  (axes_foldl axes_add gradients _).trans w.axes_zeroLike

end AttentionWeights

namespace BlockWeights

variable {d h k f : Nat}

theorem axes_named (w : BlockWeights α d h k f) : axes (Weights.named w) =
    withPrefix "attention" (axes (Weights.named w.attention)) ++ withPrefix "norm1" (axes (Weights.named w.norm1))
      ++ withPrefix "ffn" (axes (Weights.named w.feedForward)) ++ withPrefix "norm2" (axes (Weights.named w.norm2)) := by
  simp only [← axes_withPrefix, ← axes_append]
  rfl

theorem axes_add [Add α] (a b : BlockWeights α d h k f) : axes (Weights.named (a.add b)) = axes (Weights.named a) := by
  simp [axes_named, add]

theorem axes_sum [Zero α] [Add α] (w : BlockWeights α d h k f) {lead : Dims}
    (gradients : Tensor (BlockWeights α d h k f) lead) :
    axes (Weights.named (w.sum gradients)) = axes (Weights.named w) := by
  refine (axes_foldl axes_add gradients _).trans ?_
  simp [axes_named, zeroLike]

end BlockWeights

end LayerStack
