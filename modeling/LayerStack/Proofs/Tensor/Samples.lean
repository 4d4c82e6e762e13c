import LayerStack.Proofs.Tensor.Entry
import LayerStack.Proofs.Tensor.Sample
import LayerStack.Tensor.Samples

/-!
# LayerStack.Proofs.Tensor.Samples

Samples one by one.

Samples of one shape are a list of tensors on the same axes (`Samples.tensors`), and what is done with samples is said of
that list: picking some of them reads it at their places, and taking the first ones takes the first ones of it.  As one
tensor, samples that are picked are the rows at their places (`toTensor_pick`), and what treats every sample by itself
makes of rows what it made of them before, wherever they come from (`SampleWise.gather`).
-/

namespace LayerStack

variable {α β : Type}

/-! ## Samples as a list -/

namespace Samples

variable {indices : List Nat}

/-- The samples, each a tensor by itself. -/
def tensors (x : Samples α) : List (AnyTensor α) := x.items.toList.map (AnyTensor.mk x.sample)

@[simp] theorem length_tensors (x : Samples α) : x.tensors.length = x.length := by
  simp [tensors, length]

theorem getElem?_tensors (x : Samples α) (i : Nat) : x.tensors[i]? = x.items[i]?.map (AnyTensor.mk x.sample) := by
  simp [tensors]

theorem tensors_take (x : Samples α) (n : Nat) : (x.take n).tensors = x.tensors.take n := by
  simp [tensors, take]

/-- Samples that are picked are those at the places they are picked from. -/
theorem tensors_pick (x : Samples α) (h : ∀ i ∈ indices, i < x.length) :
    (x.pick indices).tensors.map some = indices.map (x.tensors[·]?) := by
  induction indices with
  | nil => rfl
  | cons i indices ih =>
      obtain ⟨hi, hindices⟩ := List.forall_mem_cons.mp h
      have hitem : x.items[i]? = some x.items[i] := Array.getElem?_eq_getElem hi
      have hrest := ih hindices
      have hsample : x.tensors[i]? = some ⟨x.sample, x.items[i]⟩ := by
        rw [getElem?_tensors, hitem, Option.map_some]
      have hcons : (x.pick (i :: indices)).tensors = ⟨x.sample, x.items[i]⟩ :: (x.pick indices).tensors := by
        simp [tensors, pick, hitem]
      rw [hcons, List.map_cons, List.map_cons, hrest, hsample]

end Samples

/-! ## Rows at some places -/

namespace Tensor

variable {n k : Nat} {s : Dims}

/-- The rows at some places. -/
def gather (x : Tensor α (n :: s)) (places : Fin k → Fin n) : Tensor α (k :: s) := ofFn fun j => x.row (places j)

@[simp] theorem row_gather (x : Tensor α (n :: s)) (places : Fin k → Fin n) (j : Fin k) :
    (x.gather places).row j = x.row (places j) := row_ofFn _ j

/-- Samples that are picked are the rows at their places. -/
theorem toTensor_pick (x : Tensor α (n :: s)) (places : List (Fin n)) :
    (Samples.pick ⟨s, Vector.toArray x⟩ (places.map Fin.val)).toTensor = ⟨places.length :: s, x.gather places.get⟩ := by
  have htensor {k : Nat} (items : Array (Tensor α s)) (y : Vector (Tensor α s) k) (h : items = y.toArray) :
      Samples.toTensor ⟨s, items⟩ = ⟨k :: s, y⟩ := by
    obtain ⟨entries, rfl⟩ := y
    subst h
    rfl
  have hrow (i : Fin n) : (Vector.toArray x)[i.val]? = some (x.row i) := by
    have hi : i.val < (Vector.toArray x).size := by
      rw [Vector.size_toArray]
      exact i.isLt
    rw [Array.getElem?_eq_getElem hi]
    rfl
  have hpicked : (places.map Fin.val).filterMap (fun i => (Vector.toArray x)[i]?) = places.map x.row := by
    rw [List.filterMap_map, ← List.filterMap_eq_map]
    exact List.filterMap_congr fun i _ => hrow i
  have hgathered : places.map x.row = (Vector.toArray (x.gather places.get)).toList := by
    refine List.ext_getElem (by simp) fun j hj _ => ?_
    have hplace : j < places.length := by simpa using hj
    rw [List.getElem_map, Array.getElem_toList]
    exact (row_gather x places.get ⟨j, hplace⟩).symm
  refine htensor _ _ ?_
  rw [hpicked, hgathered]

end Tensor

namespace AnyTensor

variable {s : Dims} {rank n : Nat} {run : AnyTensor α → Option (AnyTensor β)} {P : AnyTensor β}

/-- What treats every sample by itself makes of the rows of a batch, at whatever places, the rows that it makes of the
batch at those places. -/
theorem SampleWise.gather (h : SampleWise s rank run) (hn : 0 < n) {x : Tensor α (n :: s)} (hx : run ⟨n :: s, x⟩ = some P) :
    ∃ (u : Dims) (p : Tensor β (n :: u)), u.length = rank ∧ P = ⟨n :: u, p⟩ ∧ ∀ {k : Nat}, 0 < k →
      ∀ places : Fin k → Fin n, run ⟨k :: s, x.gather places⟩ = some ⟨k :: u, p.gather places⟩ := by
  obtain ⟨u, hu, f, hf⟩ := h
  rw [hf hn, Option.map_eq_some_iff] at hx
  obtain ⟨(p : Tensor β (n :: u)), hp, rfl⟩ := hx
  refine ⟨u, p, hu, rfl, fun hk places => ?_⟩
  have hgather : Vector.mapM f (x.gather places) = some (p.gather places) := by
    refine Tensor.mapM_eq_some.mpr fun j => ?_
    have hrow := Tensor.mapM_eq_some.mp hp (places j)
    have hinput := Tensor.row_gather x places j
    have houtput := Tensor.row_gather p places j
    exact (congrArg f hinput).trans (hrow.trans (congrArg some houtput.symm))
  rw [hf hk, hgather]
  rfl

end AnyTensor

end LayerStack
