import LayerStack.Proofs.Scalar.Real
import LayerStack.Optimizer
import LayerStack.Proofs.Operator.Names
import LayerStack.Proofs.Tensor.Place

/-!
# LayerStack.Proofs.Optimizer.Clip

Gradients clipped by their norm.

In exact arithmetic the norm of gradients is the root of the sum of all their squares (`norm_eq`), so scaling them all
scales it alike (`norm_scaled`).  Gradients past the greatest norm are scaled down to just that norm, and so clipping them
once more leaves them as they are (`clip_projects`).
-/

namespace LayerStack.GradientNorm

open NamedTensors

/-- The sum of the squares of all entries of all gradients. -/
noncomputable def squares (gradients : NamedTensors ℝ) : ℝ :=
  (gradients.map fun (_, g) => ∑ p, g.value.pick p ^ 2).sum

/-- All gradients times one number. -/
noncomputable def scaled (k : ℝ) (gradients : NamedTensors ℝ) : NamedTensors ℝ :=
  gradients.map fun (name, g) => (name, g.map (· * k))

variable {gradients : NamedTensors ℝ} {k c : ℝ}

theorem total_square {s : Dims} (x : Tensor ℝ s) : (x.map Scalar.square).total = ∑ p, x.pick p ^ 2 := by
  have hsum := Tensor.foldl_eq_sum_pick (f := (· + ·)) id id (fun _ _ => rfl) (x.map Scalar.square) (0 : ℝ)
  refine hsum.trans ?_
  simp [Scalar.square, sq]

theorem sum_scaled {s : Dims} (k : ℝ) (x : Tensor ℝ s) :
    ∑ p, (x.map (· * k)).pick p ^ 2 = k ^ 2 * ∑ p, x.pick p ^ 2 := by
  simp only [Tensor.pick_map, mul_pow, Finset.mul_sum, mul_comm]

theorem norm_eq (gradients : NamedTensors ℝ) : norm gradients = Real.sqrt (squares gradients) := by
  have hfold (total : ℝ) : gradients.foldl (fun total (_, g) => total + (g.map Scalar.square).value.total) total =
      total + squares gradients := by
    induction gradients generalizing total with
    | nil => simp [squares]
    | cons p gradients ih =>
        rw [List.foldl_cons, ih, squares, squares, List.map_cons, List.sum_cons, add_assoc]
        exact congrArg (fun sum => total + (sum + _)) (total_square p.2.value)
  rw [norm, hfold, zero_add]
  rfl

theorem squares_scaled (k : ℝ) (gradients : NamedTensors ℝ) : squares (scaled k gradients) = k ^ 2 * squares gradients := by
  rw [squares, squares, scaled, List.map_map, ← List.sum_map_mul_left]
  congr 1
  exact List.map_congr_left fun p _ => sum_scaled k p.2.value

theorem norm_scaled (hk : 0 ≤ k) (gradients : NamedTensors ℝ) : norm (scaled k gradients) = k * norm gradients := by
  rw [norm_eq, norm_eq, squares_scaled, Real.sqrt_mul (sq_nonneg k), Real.sqrt_sq hk]

theorem scaled_one (gradients : NamedTensors ℝ) : scaled 1 gradients = gradients := by
  have hone (p : String × AnyTensor ℝ) : (p.1, p.2.map (· * 1)) = p :=
    congrArg (fun x => (p.1, AnyTensor.mk p.2.dims x)) (Tensor.map_eq_self (fun a => mul_one a) p.2.value)
  exact (List.map_congr_left fun p _ => hone p).trans (List.map_id _)

theorem names_scaled (k : ℝ) (gradients : NamedTensors ℝ) : names (scaled k gradients) = names gradients := by
  rw [names, names, scaled, List.map_map]
  rfl

/-! ## Gradients that may be missing -/

/-- Gradients none of which is missing. -/
def given (gradients : NamedTensors ℝ) : List (String × Option (AnyTensor ℝ)) :=
  gradients.map fun (name, g) => (name, some g)

/-- The gradients that are there are those that are not missing, in their order. -/
theorem given_present (sent : List (String × Option (AnyTensor ℝ))) :
    given (present sent) = sent.filter (·.2.isSome) := by
  induction sent with
  | nil => rfl
  | cons p sent ih =>
      obtain ⟨name, _ | g⟩ := p
      · exact ih
      · exact congrArg ((name, some g) :: ·) ih

theorem present_given (gradients : NamedTensors ℝ) : present (given gradients) = gradients := by
  rw [present, given, List.filterMap_map]
  exact List.filterMap_some

variable {sent : List (String × Option (AnyTensor ℝ))}

theorem clip_of_le (h : norm (present sent) ≤ c) : clip sent c = present sent := by
  have hfactor : (if c < norm (present sent) then c / norm (present sent) else 1) = 1 := if_neg (not_lt.mpr h)
  rw [clip, hfactor]
  exact scaled_one _

theorem clip_of_lt (h : c < norm (present sent)) : clip sent c = scaled (c / norm (present sent)) (present sent) := by
  rw [clip, if_pos h]
  rfl

/-- Clipping is a projection that scales, by the root of the sum of all squares.  What it leaves of gradients are those that
are not missing, in their order: as they are, if their norm is at most the greatest one, else all times one positive number
that makes it the greatest one.  So the norm is never above that, and clipping once more changes nothing. -/
theorem clip_projects (sent : List (String × Option (AnyTensor ℝ))) (hc : 0 < c) :
    let there := present sent
    let clipped := clip sent c
    given there = sent.filter (·.2.isSome) ∧ names clipped = names there ∧
      norm there = Real.sqrt (squares there) ∧ norm clipped = Real.sqrt (squares clipped) ∧
      (norm there ≤ c → clipped = there) ∧
      (c < norm there → ∃ k, 0 < k ∧ clipped = scaled k there ∧ norm clipped = c) ∧
      norm clipped ≤ c ∧ clip (given clipped) c = clipped := by
  intro there clipped
  have hscaled (h : c < norm there) : 0 < c / norm there ∧ clipped = scaled (c / norm there) there ∧
      norm clipped = c := by
    have hnorm : 0 < norm there := hc.trans h
    have hk : 0 < c / norm there := div_pos hc hnorm
    have hclipped : clipped = scaled (c / norm there) there := clip_of_lt h
    exact ⟨hk, hclipped, by rw [hclipped, norm_scaled hk.le, div_mul_cancel₀ c hnorm.ne']⟩
  have hbound : norm clipped ≤ c := by
    rcases le_or_gt (norm there) c with hle | hgt
    · exact (congrArg norm (clip_of_le hle)).trans_le hle
    · exact (hscaled hgt).2.2.le
  refine ⟨given_present sent, ?names, norm_eq there, norm_eq clipped, clip_of_le, fun h => ⟨_, hscaled h⟩, hbound, ?again⟩
  case names => exact names_scaled _ there
  case again =>
    have hpresent : present (given clipped) = clipped := present_given clipped
    rw [clip_of_le (by rwa [hpresent]), hpresent]

/-- Three and four in two tensors, one of them beside a gradient that is missing, are clipped to a norm of one. -/
theorem clip_projects_pair :
    let sent : List (String × Option (AnyTensor ℝ)) :=
      [("w", some ⟨[2], #v[3, 0]⟩), ("lost", none), ("b", some ⟨[], (-4 : ℝ)⟩)]
    (0 : ℝ) < 1 ∧ norm (present sent) = 5 ∧ norm (clip sent 1) = 1 := by
  intro sent
  have hnorm : norm (present sent) = 5 := by
    have hsquares : squares (present sent) = 5 ^ 2 := by
      have hw : ∑ p : Place [2], Tensor.pick (#v[3, 0] : Tensor ℝ [2]) p ^ 2 = 3 ^ 2 + 0 ^ 2 := by
        rw [Place.sum_cons, Fin.sum_univ_two, Place.sum_nil, Place.sum_nil]
        rfl
      have hb : ∑ p : Place [], Tensor.pick (s := []) (-4 : ℝ) p ^ 2 = (-4) ^ 2 := Place.sum_nil _
      show (∑ p : Place [2], Tensor.pick (#v[3, 0] : Tensor ℝ [2]) p ^ 2) +
        ((∑ p : Place [], Tensor.pick (s := []) (-4 : ℝ) p ^ 2) + 0) = 5 ^ 2
      rw [hw, hb]
      norm_num
    rw [norm_eq, hsquares, Real.sqrt_sq (by norm_num)]
  obtain ⟨_, _, _, _, _, hscaled, _⟩ := clip_projects (c := 1) sent one_pos
  obtain ⟨_, _, _, hone⟩ := hscaled (by rw [hnorm]; norm_num)
  exact ⟨one_pos, hnorm, hone⟩

end LayerStack.GradientNorm
