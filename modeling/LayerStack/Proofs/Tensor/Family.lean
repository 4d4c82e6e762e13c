import LayerStack.Tensor.Any

/-!
# LayerStack.Proofs.Tensor.Family

The axes of tensors whose axes are known only when they arrive.

Reading such a tensor as a family, stretching it or combining it with another one may fail; on axes that fit it does
not, and the result has the axes it should have.  Each operation has one lemma for that, named for the axes it asks for.
-/

namespace LayerStack

namespace Dims

/-- The last axes alone stretch to all axes. -/
theorem fromLast_append (s lead : Dims) : common?.fromLast (s ++ lead) s = some (s ++ lead) := by
  induction s with
  | nil => cases lead <;> rfl
  | cons n s ih => simp [common?.fromLast, ih]

theorem volume_pos {s : Dims} (h : ∀ n ∈ s, 0 < n) : 0 < volume s := by
  induction s with
  | nil => exact Nat.one_pos
  | cons n s ih =>
      obtain ⟨hn, hs⟩ := List.forall_mem_cons.mp h
      exact Nat.mul_pos hn (ih hs)

theorem common?_append (lead s : Dims) : common? (lead ++ s) s = some (lead ++ s) := by
  simp [common?, fromLast_append]

end Dims

namespace Tensor

variable {α β : Type} {s t : Dims}

/-- A vector of results is there if all of them are. -/
theorem isSome_mapM {n : Nat} {f : α → Option β} (hf : ∀ a, (f a).isSome) (x : Vector α n) : (x.mapM f).isSome := by
  have hpure : f = fun a => pure ((f a).get (hf a)) := by
    funext a
    exact (Option.some_get (hf a)).symm
  rw [hpure, Vector.mapM_pure]
  rfl

theorem isSome_traverse? {f : α → Option β} (hf : ∀ a, (f a).isSome) : (s : Dims) → (x : Tensor α s) →
    (x.traverse? f).isSome
  | [], a => hf a
  | _ :: s, x => isSome_mapM (isSome_traverse? hf s) x

/-- What holds at the start and is kept by every entry holds at the end. -/
theorem foldl_induction {P : β → Prop} {f : β → α → β} (hstep : ∀ b a, P b → P (f b a)) : {s : Dims} →
    (x : Tensor α s) → {b : β} → P b → P (x.foldl f b)
  | [], a, b, hb => hstep b a hb
  | n :: s, x, b, hb => by
      show P (Vector.foldl (fun acc r => foldl f acc r) b x)
      rw [← Vector.foldl_toList]
      induction x.toList generalizing b with
      | nil => exact hb
      | cons r rows ih => exact ih _ (foldl_induction hstep r hb)

/-! ## Stretching -/

/-- A tensor is repeated along leading axes. -/
theorem isSome_stretch?_append (x : Tensor α s) (lead : Dims) : (x.stretch? (lead ++ s)).isSome := by
  induction lead with
  | nil => rw [List.nil_append, stretch?_self]; rfl
  | cons n lead ih =>
      unfold stretch?
      split
      · rfl
      · simpa using ih

/-- A tensor of one row is repeated along the first axis. -/
theorem isSome_stretch?_row (x : Tensor α (1 :: s)) (n : Nat) : (x.stretch? (n :: s)).isSome := by
  unfold stretch?
  split
  · rfl
  · next hne =>
      have hn : ¬ 1 = n := by
        rintro rfl
        exact hne rfl
      have hlonger : ¬ s.length + 1 ≤ s.length := by omega
      simp [hn, hlonger, stretch?_self]

/-- Rows that can be stretched are stretched along the first axis. -/
theorem isSome_stretch?_cons {n : Nat} (hlen : s.length = t.length) (h : ∀ r : Tensor α s, (r.stretch? t).isSome)
    (x : Tensor α (n :: s)) : (x.stretch? (n :: t)).isSome := by
  unfold stretch?
  split
  · rfl
  · have hlonger : ¬ (n :: s).length ≤ t.length := by simp [hlen]
    simp only [hlonger, if_false, dif_pos]
    exact isSome_mapM h _

end Tensor

namespace AnyTensor

variable {α β γ : Type} {s lead : Dims}

@[simp] theorem dims_map (f : α → β) (x : AnyTensor α) : (x.map f).dims = x.dims := rfl

@[simp] theorem dims_join (x : AnyTensor (Tensor α s)) : x.join.dims = x.dims ++ s := rfl

@[simp] theorem dims_foldLast (f : {n : Nat} → Tensor α [n] → β) (x : AnyTensor α) :
    (x.foldLast f).dims = x.dims.dropLast := rfl

@[simp] theorem dims_sumLeading [Zero α] [Add α] (x : AnyTensor α) (k : Nat) :
    (x.sumLeading k).dims = x.dims.drop k := rfl

theorem dims_cast {t : Dims} (h : t = s) (x : AnyTensor (Tensor α t)) :
    (h ▸ x : AnyTensor (Tensor α s)).dims = x.dims := by
  subst h
  rfl

/-! ## Families -/

/-- A tensor is a family along its leading axes. -/
theorem blocks?_of_dims {x : AnyTensor α} (h : x.dims = lead ++ s) :
    ∃ y, x.blocks? s = some y ∧ y.dims = lead := by
  have hdrop : x.dims.drop (x.rank - s.length) = s := by simp [rank, h]
  refine ⟨_, dif_pos hdrop, ?_⟩
  rw [dims_cast]
  simp [split, rank, h]

/-- A family has the axes of a tensor that lead. -/
theorem dims_of_blocks? {x : AnyTensor α} {y : AnyTensor (Tensor α s)} (h : x.blocks? s = some y) :
    x.dims = y.dims ++ s := by
  unfold blocks? at h
  split at h
  · next hdrop =>
      obtain rfl := Option.some.inj h
      rw [dims_cast]
      conv => lhs; rw [← List.take_append_drop (x.rank - s.length) x.dims, hdrop]
      rfl
  · contradiction

/-- So are its entries, if the tensors have any. -/
theorem cut?_eq_blocks? [Zero α] {x : AnyTensor α} {y : AnyTensor (Tensor α s)} (hs : 0 < Dims.volume s)
    (h : x.blocks? s = some y) : x.cut? s = some y := by
  simp only [cut?, if_pos hs, h]

theorem cut?_of_dims [Zero α] {x : AnyTensor α} (hs : 0 < Dims.volume s) (h : x.dims = lead ++ s) :
    ∃ y, x.cut? s = some y ∧ y.dims = lead := by
  obtain ⟨y, hy, hdims⟩ := blocks?_of_dims h
  exact ⟨y, cut?_eq_blocks? hs hy, hdims⟩

theorem regroup?_of_dims [Zero α] {x : AnyTensor (Tensor α s)} (h : x.dims = lead) : x.regroup? lead = some x :=
  if_pos h

theorem spreadFamily?_of_dims {x : AnyTensor α} (h : x.dims = lead ++ s) :
    ∃ y, x.spreadFamily? lead s = some y ∧ y.dims = lead := by
  obtain ⟨dims, value⟩ := x
  subst h
  exact ⟨_, by rw [spreadFamily?, spread?, Tensor.stretch?_self]; rfl, rfl⟩

theorem spreadBlocks?_of_dims {x : AnyTensor α} (h : x.dims = lead ++ s) :
    ∃ y, x.spreadBlocks? s = some y ∧ y.dims = lead := by
  have hdrop : x.dims.drop (x.rank - s.length) = s := by simp [rank, h]
  have hstretch (block : Tensor α (x.dims.drop (x.rank - s.length))) : (block.stretch? s).isSome := by
    generalize x.dims.drop (x.rank - s.length) = t at hdrop block
    subst hdrop
    rw [Tensor.stretch?_self]
    rfl
  obtain ⟨y, hy⟩ := Option.isSome_iff_exists.mp
    (Tensor.isSome_traverse? hstretch _ (x.split (x.rank - s.length)).value)
  exact ⟨_, by rw [spreadBlocks?, traverse?, hy]; rfl, by simp [split, rank, h]⟩

/-! ## Two tensors -/

/-- Tensors on the same axes are combined on those. -/
theorem zipWith?_of_dims (f : α → β → γ) {x : AnyTensor α} {y : AnyTensor β} (h : x.dims = y.dims) :
    ∃ z, zipWith? f x y = some z ∧ z.dims = x.dims := by
  obtain ⟨dims, value⟩ := x
  obtain ⟨dims', value'⟩ := y
  obtain rfl : dims = dims' := h
  exact ⟨_, zipWith?_mk f value value', rfl⟩

/-- A tensor on the last axes is combined with one on all of them. -/
theorem zipWith?_of_append (f : α → β → γ) {x : AnyTensor α} {y : AnyTensor β} (h : x.dims = lead ++ y.dims) :
    ∃ z, zipWith? f x y = some z ∧ z.dims = x.dims := by
  obtain ⟨dims, value⟩ := x
  obtain ⟨dims', value'⟩ := y
  obtain rfl : dims = lead ++ dims' := h
  obtain ⟨longer, hlonger⟩ := Option.isSome_iff_exists.mp (Tensor.isSome_stretch?_append value' lead)
  refine ⟨⟨lead ++ dims', value.zipWith f longer⟩, ?_, rfl⟩
  simp [zipWith?, spread?, Dims.common?_append, Tensor.stretch?_self, hlonger]

theorem zipLast?_of_dims (f : {n : Nat} → Tensor α [n] → Tensor β [n] → Tensor γ [n]) {x : AnyTensor α}
    {y : AnyTensor β} (h : x.dims = y.dims) : ∃ z, zipLast? f x y = some z ∧ z.dims = x.dims := by
  obtain ⟨dims, value⟩ := x
  obtain ⟨dims', value'⟩ := y
  obtain rfl : dims = dims' := h
  refine ⟨⟨dims, value.zipLast f value'⟩, ?_, rfl⟩
  simp [zipLast?, spread?, Dims.common?_self, Tensor.stretch?_self]

end AnyTensor

end LayerStack
