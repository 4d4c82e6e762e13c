import LayerStack.Loader
import LayerStack.Proofs.Outcome
import Mathlib.Data.List.Perm.Basic

/-!
# LayerStack.Proofs.Loader

What the batches of an epoch are.

A shuffle only changes the order (`perm_shuffle`), so an epoch goes through every index once.  Cut into pieces of a size,
its order makes as many batches as that size fits in, rounded up (`length_epoch`), and none of them is empty.
-/

namespace LayerStack

/-! ## Shuffling -/

namespace Draw

variable {β : Type}

theorem perm_shuffle_go (n : Nat) (items : Array β) (s : Stream) : (shuffle.go n items s).1.Perm items := by
  induction n generalizing items s with
  | zero => exact .refl items
  | succ n ih =>
      rw [shuffle.go]
      generalize upTo (n + 1) = draw
      refine (ih (items.swapIfInBounds (n + 1) (draw s).1) (draw s).2).trans ?_
      unfold Array.swapIfInBounds
      split
      · split
        · exact Array.swap_perm _ _
        · exact .refl items
      · exact .refl items

/-- A shuffle only changes the order. -/
theorem perm_shuffle (items : Array β) (s : Stream) : (shuffle items s).1.Perm items := perm_shuffle_go _ items s

theorem perm_permutation (n : Nat) (s : Stream) : (permutation n s).1.toList.Perm (List.range n) := by
  have hperm := Array.perm_iff_toList_perm.mp (perm_shuffle (Array.range n) s)
  rwa [Array.toList_range] at hperm

end Draw

/-! ## Cutting -/

section Chunks

variable {β : Type} {k : Nat}

/-- There are as many pieces as fit in, rounded up. -/
theorem length_chunks (hk : 0 < k) (l : List β) : (chunks k l).length = (l.length + k - 1) / k := by
  fun_induction chunks k l with
  | case1 => simp [Nat.div_eq_of_lt (Nat.sub_lt hk Nat.one_pos)]
  | case2 x xs ih =>
      have hrest : (xs.length - (k - 1) + k - 1) / k = xs.length / k := by
        rcases Nat.le_total (k - 1) xs.length with hlong | hshort
        · exact congrArg (· / k) (by omega)
        · rw [Nat.div_eq_of_lt (by omega), Nat.div_eq_of_lt (by omega)]
      calc (chunks k (xs.drop (k - 1))).length + 1 = xs.length / k + 1 := by rw [ih, List.length_drop, hrest]
        _ = (xs.length + k) / k := (Nat.add_div_right _ hk).symm
        _ = ((x :: xs).length + k - 1) / k := congrArg (· / k) (by rw [List.length_cons]; omega)

/-- No piece is empty. -/
theorem ne_nil_of_mem_chunks {l piece : List β} (h : piece ∈ chunks k l) : piece ≠ [] := by
  fun_induction chunks k l with
  | case1 => contradiction
  | case2 x xs ih =>
      rcases List.mem_cons.mp h with rfl | h
      · exact List.cons_ne_nil _ _
      · exact ih h

theorem chunks_map {γ : Type} (f : β → γ) (l : List β) : chunks k (l.map f) = (chunks k l).map (List.map f) := by
  fun_induction chunks k l with
  | case1 => rw [List.map_nil, chunks, List.map_nil]
  | case2 x xs ih => rw [List.map_cons, chunks, List.map_cons, ← List.map_take, ← List.map_drop, ih, List.map_cons]

end Chunks

/-! ## Picking -/

namespace Samples

variable {α : Type} {k : Nat} {indices : List Nat}

theorem length_take (x : Samples α) (k : Nat) : (x.take k).length = min k x.length := by
  rw [length, take, Array.size_extract, Nat.sub_zero, length]

theorem length_drop (x : Samples α) (k : Nat) : (x.drop k).length = x.length - k := by
  rw [length, drop, Array.size_extract, Nat.min_self, length]

/-- Samples before some index are found among the first ones. -/
theorem pick_take (x : Samples α) (h : ∀ i ∈ indices, i < k) : (x.take k).pick indices = x.pick indices := by
  have hitems : ∀ i ∈ indices, (x.take k).items[i]? = x.items[i]? := by
    intro i hi
    have hk := h i hi
    show (x.items.extract 0 k)[i]? = _
    rw [Array.getElem?_extract, Nat.zero_add]
    split
    · rfl
    · exact (Array.getElem?_eq_none (by omega)).symm
  rw [pick, pick, List.filterMap_congr hitems]
  rfl

/-- Samples after the first ones are found as much further on. -/
theorem pick_drop (x : Samples α) (k : Nat) (indices : List Nat) :
    (x.drop k).pick indices = x.pick (indices.map (k + ·)) := by
  have hitems (i : Nat) : (x.drop k).items[i]? = x.items[k + i]? := by
    show (x.items.extract k)[i]? = _
    rw [Array.getElem?_extract]
    split
    · rfl
    · exact (Array.getElem?_eq_none (by omega)).symm
  simp only [pick, List.filterMap_map, Function.comp_def, hitems]
  rfl

/-- Samples picked at places there are: one for every place. -/
theorem length_pick (x : Samples α) {indices : List Nat} (h : ∀ i ∈ indices, i < x.length) :
    (x.pick indices).length = indices.length := by
  induction indices with
  | nil => rfl
  | cons i indices ih =>
      obtain ⟨hi, hindices⟩ := List.forall_mem_cons.mp h
      have hitem : x.items[i]? = some x.items[i] := Array.getElem?_eq_getElem hi
      have hrest := ih hindices
      simp only [length, pick, List.size_toArray] at hrest ⊢
      rw [List.filterMap_cons, hitem, List.length_cons, List.length_cons, hrest]

end Samples

namespace LabelledSamples

variable {α : Type} {k : Nat} {indices : List Nat}

theorem pick_take (x : LabelledSamples α) (h : ∀ i ∈ indices, i < k) : (x.take k).pick indices = x.pick indices :=
  congrArg₂ LabelledSamples.mk (x.inputs.pick_take h) (x.labels.pick_take h)

theorem pick_drop (x : LabelledSamples α) (k : Nat) (indices : List Nat) :
    (x.drop k).pick indices = x.pick (indices.map (k + ·)) :=
  congrArg₂ LabelledSamples.mk (x.inputs.pick_drop k indices) (x.labels.pick_drop k indices)

end LabelledSamples

/-! ## Epochs -/

namespace Loader

variable {α : Type}

/-- A loader that is made has as many labels as inputs, and the samples and the batch size it was made of. -/
theorem ofSettings_eq_ok {samples : LabelledSamples α} {batchSize : Value} {shuffle dropLast : Bool} {l : Loader α}
    (h : ofSettings samples batchSize shuffle dropLast = .ok l) :
    samples.isPaired = true ∧ batchSize.quantity? = some (.int l.batchSize) ∧ l.samples = samples ∧
      l.shuffle = shuffle ∧ l.dropLast = dropLast := by
  unfold ofSettings at h
  split at h
  · next hpaired =>
    split at h
    · contradiction
    · next size hsize =>
      split at h
      · contradiction
      · split at h
        · next n =>
          split at h
          · next hpos =>
            obtain rfl := Except.ok.inj h
            exact ⟨hpaired, by rw [hsize, Int.toNat_of_nonneg (by omega)], rfl, rfl, rfl⟩
          · contradiction
        · contradiction
  · contradiction

/-- An epoch goes through every index once. -/
theorem perm_order (l : Loader α) (s : Stream) : (l.order s).1.Perm (List.range l.length) := by
  unfold order
  split
  · exact Draw.perm_permutation l.length s
  · exact .refl _

variable {l : Loader α}

/-- The batches of an epoch of all samples: the samples at the places of every piece of its order. -/
theorem epoch_eq (hall : l.dropLast = false) (s : Stream) :
    (l.epoch s).1 = (chunks l.batchSize (l.order s).1).map l.samples.pick := by
  rw [epoch, run_bind]
  show (l.cut (l.order s).1).map l.samples.pick = _
  rw [cut, hall]
  rfl

theorem length_epoch (hall : l.dropLast = false) (s : Stream) :
    (l.epoch s).1.length = (l.length + l.batchSize - 1) / l.batchSize := by
  rw [epoch_eq hall, List.length_map, length_chunks l.batchSize_pos, (l.perm_order s).length_eq, List.length_range]

/-- No batch is empty. -/
theorem length_pos_of_mem_epoch (hall : l.dropLast = false) {s : Stream} {batch : LabelledSamples α}
    (h : batch ∈ (l.epoch s).1) : 0 < batch.inputs.length := by
  rw [epoch_eq hall] at h
  obtain ⟨indices, hpiece, rfl⟩ := List.mem_map.mp h
  have hbelow : ∀ i ∈ indices, i < l.samples.inputs.length := by
    intro i hi
    have horder : i ∈ (l.order s).1 := by
      rw [← flatten_chunks l.batchSize (l.order s).1]
      exact List.mem_flatten.mpr ⟨indices, hpiece, hi⟩
    exact List.mem_range.mp ((l.perm_order s).mem_iff.mp horder)
  show 0 < (l.samples.inputs.pick indices).length
  rw [Samples.length_pick _ hbelow]
  exact List.length_pos_iff.mpr (ne_nil_of_mem_chunks hpiece)

end Loader

end LayerStack
