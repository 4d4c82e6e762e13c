import LayerStack.Proofs.Tensor.Dual
import LayerStack.Operator.Dropout

/-!
# LayerStack.Proofs.Operator.Transpose.Dropout

The way back through a dropout mask.

A mask scales what moves, and is the same on the way back (`transposes_masked`).  The numbers of a stream are constants, so
what moves is dropped out by masks that do not: at a constant rate they are those of the real numbers, drawn in the same
order (`masks?_constant`).
-/

namespace LayerStack

open Tensor

/-! ## Draws in other scalars -/

namespace Tensor

variable {α β : Type}

theorem map_generate (φ : α → β) : (s : Dims) → (f : Nat → α) → (generate f s).map φ = generate (fun k => φ (f k)) s
  | [], _ => rfl
  | n :: s, f => ext_row fun i => by
      have hrow {γ : Type} (f : Nat → γ) :
          row (generate f (n :: s)) i = generate (fun k => f (i * Dims.volume s + k)) s := Vector.getElem_ofFn i.isLt
      rw [row_map, hrow, hrow, map_generate φ s]

theorem map_ofArray [Zero α] [Zero β] {φ : α → β} (hφ : φ 0 = 0) (s : Dims) (entries : Array α) :
    (ofArray s entries).map φ = ofArray s (entries.map φ) := by
  have hentry (k : Nat) : φ (entries.getD k 0) = (entries.map φ).getD k 0 := by
    rw [Array.getD_eq_getD_getElem?, Array.getD_eq_getD_getElem?, Array.getElem?_map, ← hφ, Option.getD_map]
  rw [ofArray, ofArray, map_generate]
  exact congrArg (generate · s) (funext hentry)

theorem map_blocks (φ : α → β) {s : Dims} : (lead : Dims) → (x : Tensor α (lead ++ s)) →
    blocks lead (x.map φ) = (blocks lead x).map (map φ)
  | [], _ => rfl
  | n :: lead, x => by
      show Vector.map (blocks lead) (Vector.map (map φ) x) = Vector.map (map (map φ)) (Vector.map (blocks lead) x)
      rw [Vector.map_map, Vector.map_map]
      exact Vector.map_congr_left fun r _ => map_blocks φ lead r

end Tensor

namespace Draw

variable {σ α β : Type}

theorem many_go_map (φ : α → β) (draw : StateM σ α) (n : Nat) (drawn : Array α) :
    many.go (φ <$> draw) n (drawn.map φ) = Array.map φ <$> many.go draw n drawn := by
  induction n generalizing drawn with
  | zero => rfl
  | succ n ih =>
      funext s
      show many.go (φ <$> draw) n ((drawn.map φ).push (φ (draw s).1)) (draw s).2 = _
      rw [← Array.map_push, ih]
      rfl

theorem tensor_map [Zero α] [Zero β] {φ : α → β} (hφ : φ 0 = 0) (draw : StateM σ α) (s : Dims) :
    tensor (φ <$> draw) s = Tensor.map φ <$> tensor draw s := by
  have hmany : many (φ <$> draw) (Dims.volume s) = Array.map φ <$> many draw (Dims.volume s) := by
    rw [many, many, ← many_go_map, Array.map_empty]
  rw [tensor, tensor, hmany]
  simp only [bind_pure_comp, Functor.map_map, map_ofArray hφ]

end Draw

/-! ## Masks -/

namespace Dropout

/-- A mask on either side of a product of matching entries. -/
theorem masked_inner {α : Type} [CommRing α] : {s : Dims} → (g x : Tensor α s) → (mask : Option (Tensor α s)) →
    (masked g mask).inner x = g.inner (masked x mask)
  | _, _, _, none => rfl
  | [], g, x, some m => by
      show 0 + g * m * x = 0 + (g : α) * (x * m)
      ring
  | _ :: _, g, x, some m => by
      rw [inner_eq_sum_row, inner_eq_sum_row]
      refine Finset.sum_congr rfl fun i _ => ?_
      rw [masked, masked, row_zipWith, row_zipWith]
      exact masked_inner (g.row i) (x.row i) (some (m.row i))

noncomputable section

theorem values_masked : {s : Dims} → (X : Tensor Dual s) → (mask : Option (Tensor ℝ s)) →
    (masked X (mask.map constants)).values = masked X.values mask
  | _, _, none => rfl
  | [], _, some _ => rfl
  | _ :: _, X, some m => ext_row fun i => by
      rw [Option.map_some, row_values, masked, masked, row_zipWith, row_zipWith, row_values, row_constants]
      exact values_masked (X.row i) (some (m.row i))

theorem slopes_masked : {s : Dims} → (X : Tensor Dual s) → (mask : Option (Tensor ℝ s)) →
    (masked X (mask.map constants)).slopes = masked X.slopes mask
  | _, _, none => rfl
  | [], X, some m => by
      show X.slope * m + X.value * 0 = X.slope * m
      ring
  | _ :: _, X, some m => ext_row fun i => by
      rw [Option.map_some, row_slopes, masked, masked, row_zipWith, row_zipWith, row_slopes, row_constants]
      exact slopes_masked (X.row i) (some (m.row i))

variable {s : Dims}

/-- A mask that does not move is the same on the way back. -/
theorem transposes_masked (mask : Option (Tensor ℝ s)) :
    Transposes (masked · (mask.map constants)) (masked · mask) fun _ g => masked g mask where
  values X := values_masked X mask
  slopes X g := by rw [slopes_masked, masked_inner]

/-! ### Masks that do not move -/

theorem unit_constant : (Draw.unit : Draw Dual) = Dual.constant <$> Draw.unit := by
  funext stream
  refine Prod.ext ?_ rfl
  show (stream.next.1 : Dual) / (Stream.bound : Dual) = Dual.constant (stream.next.1 / Stream.bound)
  rw [Dual.natCast_eq, Dual.natCast_eq, Dual.constant_div]

theorem indicator_constant (p : Bool) : (Scalar.indicator p : Dual) = Dual.constant (Scalar.indicator p) := by
  cases p
  · exact (Dual.natCast_eq 0)
  · exact Dual.one_eq

theorem mask_constant (rate : ℝ) (s : Dims) : mask (Dual.constant rate) s = constants <$> mask rate s := by
  unfold mask
  by_cases hrate : 1 ≤ rate
  · have hdual : (1 : Dual) ≤ Dual.constant rate := (Dual.constant_le 1 rate).mpr hrate
    rw [if_pos hrate, if_pos hdual, map_pure, constants, map_fill]
    rfl
  · have hdual : ¬ (1 : Dual) ≤ Dual.constant rate := fun h => hrate ((Dual.constant_le 1 rate).mp h)
    have hfactor (a : ℝ) : Scalar.indicator (Dual.constant a < 1 - Dual.constant rate) / (1 - Dual.constant rate) =
        Dual.constant (Scalar.indicator (a < 1 - rate) / (1 - rate)) := by
      rw [Dual.one_eq, Dual.constant_sub, indicator_constant, Dual.constant_div]
      simp only [Dual.constant_lt]
    rw [if_neg hrate, if_neg hdual, unit_constant, Draw.tensor_map Dual.zero_eq.symm]
    simp only [bind_pure_comp, Functor.map_map, constants, map_map, hfactor]

theorem masks?_constant (training : Bool) (rate : ℝ) (lead s : Dims) :
    masks? training (Dual.constant rate) lead s = map (Option.map constants) <$> masks? training rate lead s := by
  have hactive : isActive training (Dual.constant rate) = isActive training rate := by
    rw [isActive, isActive, Dual.zero_eq]
    simp only [Dual.constant_lt]
  rw [masks?, masks?, hactive]
  split
  · rw [mask_constant]
    simp only [bind_pure_comp, Functor.map_map, constants, map_blocks, map_map, Option.map_some]
  · rw [map_pure, map_fill, Option.map_none]

end

end Dropout

end LayerStack
