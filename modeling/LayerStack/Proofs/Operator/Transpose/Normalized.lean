import LayerStack.Proofs.Operator.Transpose.LayerNorm
import LayerStack.Proofs.Tensor.Place

/-!
# LayerStack.Proofs.Operator.Transpose.Normalized

The way back through a normalization along any leading axes.

Rows may have any axes in front of their own.  The way back of a batch is the way back of the row at every place, and what it
collects for scale and shift are sums over all places (`backwardBatch_append`).  In exact arithmetic each row that is passed
back is the transpose of how a normalized row moves, and as moving a row as a whole does not move that at all, what is passed
back adds up to nothing (`normalized_transposes`).
-/

namespace LayerStack

open Tensor

namespace LayerNorm

/-! ## Batches -/

section Passes

variable {α : Type} {n : Nat} {lead : Dims}

/-- Rows of the declared width, traced and put out place by place. -/
theorem forwardBatch_append [Scalar α] {l : LayerNorm α [n]} (hdeclared : (Value.int n).same l.declared)
    (hbounded : l.bounded) (x : Tensor α (lead ++ [n])) :
    l.forwardBatch ⟨lead ++ [n], x⟩ =
      .ok (⟨lead ++ [n], join lead (((blocks lead x).map l.trace).map l.output)⟩, ⟨lead, (blocks lead x).map l.trace⟩) := by
  have hlast : AnyTensor.lastAxis ⟨lead ++ [n], x⟩ = n := by simp [AnyTensor.lastAxis]
  have hrows : l.forwardBatch ⟨lead ++ [n], x⟩ = l.normalizeRows ⟨lead ++ [n], x⟩ := by
    unfold forwardBatch
    rw [hlast, if_pos hdeclared, if_pos hbounded]
  rw [hrows, normalizeRows, AnyTensor.blocks?_mk]
  rfl

theorem scaledBatch_append [Scalar α] (l : LayerNorm α [n]) (g : Tensor α (lead ++ [n])) :
    ∃ d : Tensor α (lead ++ [n]), l.scaledBatch ⟨_, g⟩ = some ⟨_, d⟩ ∧ ∀ p, d.member p = l.weights.scaled (g.member p) := by
  rw [scaledBatch]
  cases hgamma : l.weights.gamma with
  | none => exact ⟨g, rfl, fun p => by rw [ScaleShift.scaled, hgamma]⟩
  | some gamma =>
      refine ⟨_, AnyTensor.zipWith?_append _ g gamma, fun p => ?_⟩
      rw [member_zipWith, member_join, pick_fill, ScaleShift.scaled, hgamma]

variable [ExactField α]

/-- The gradients of scale and shift, as far as there are any, are sums over all places. -/
theorem weightGradients_append (l : LayerNorm α [n]) (traces : Tensor (Trace α n) lead) (g : Tensor α (lead ++ [n])) :
    l.weightGradients ⟨lead, traces⟩ ⟨lead ++ [n], g⟩ = some (Weights.named
      (⟨l.weights.gamma.map fun _ => .ofEntries fun i => ∑ p, (g.member p).entry i * (traces.pick p).normalized.entry i,
        l.weights.beta.map fun _ => .ofEntries fun i => ∑ p, (g.member p).entry i⟩ : ScaleShift α [n])) := by
  have hrank : AnyTensor.rank ⟨lead ++ [n], g⟩ - 1 = lead.length := by simp [AnyTensor.rank]
  have hsums (x : Tensor α (lead ++ [n])) :
      (blocks lead x).foldl Tensor.add (zeros [n]) = .ofEntries fun i => ∑ p, (x.member p).entry i :=
    ext_entry fun i => by rw [entry_foldl_add, entry_ofEntries]; rfl
  have hproducts : AnyTensor.zipWith? (· * ·) ⟨lead ++ [n], g⟩ (AnyTensor.map (·.normalized) ⟨lead, traces⟩).join =
      some ⟨lead ++ [n], zipWith (· * ·) g (join lead (traces.map (·.normalized)))⟩ := AnyTensor.zipWith?_mk _ g _
  simp only [weightGradients, hproducts, hrank, AnyTensor.sumLeading_append _ rfl, hsums, member_zipWith, member_join,
    pick_map, entry_zipWith, Option.bind_eq_bind, Option.bind_some, Weights.named]
  cases l.weights.gamma <;> cases l.weights.beta <;> rfl

/-- The way back along leading axes is that of one row at every place. -/
theorem backwardBatch_append (l : LayerNorm α [n]) (traces : Tensor (Trace α n) lead) (g : Tensor α (lead ++ [n])) :
    ∃ dx : Tensor α (lead ++ [n]), l.backwardBatch ⟨lead, traces⟩ ⟨lead ++ [n], g⟩ = .ok (⟨lead ++ [n], dx⟩, Weights.named
        (⟨l.weights.gamma.map fun _ => .ofEntries fun i => ∑ p, (g.member p).entry i * (traces.pick p).normalized.entry i,
          l.weights.beta.map fun _ => .ofEntries fun i => ∑ p, (g.member p).entry i⟩ : ScaleShift α [n])) ∧
      ∀ p, dx.member p = l.backward (traces.pick p) (g.member p) := by
  obtain ⟨d, hscaled, hd⟩ := l.scaledBatch_append g
  refine ⟨join lead (zipWith (fun t p => backwardScaled (Scalar.ofNumber (.int n)) t p.1 p.2) traces
    (zipWith Prod.mk (blocks lead d) ((blocks lead d).map total))), ?run, fun p => ?places⟩
  case run =>
    show RunError.fit (l.backwardRows ⟨lead, traces⟩ ⟨lead ++ [n], g⟩) = _
    simp only [backwardRows, hscaled, AnyTensor.foldLast_append, AnyTensor.spreadBlocks?_append, AnyTensor.zipWith?_mk,
      weightGradients_append, Option.bind_eq_bind, Option.bind_some]
    rfl
  case places =>
    have hmember : (blocks lead d).pick p = l.weights.scaled (g.member p) := hd p
    rw [member_join, pick_zipWith, pick_zipWith, pick_map, hmember, ExactField.ofNumber_int, Int.cast_natCast, backward]

end Passes

/-! ## How normalized rows move -/

section Moving

variable {α : Type} [Field α] {n : Nat}

/-- The mean of some numbers. -/
def average (x : Fin n → α) : α := (∑ i, x i) / n

/-- The mean of the squares of what they are without their mean. -/
def spread (x : Fin n → α) : α := average fun i => (x i - average x) ^ 2

/-- How a normalized row moves with the row: as that does, less the mean of all that moves, less its own share in how the
row moves along itself, over the deviation. -/
def normalizedAlong (deviation : α) (x v : Fin n → α) (i : Fin n) : α :=
  (v i - average v - x i * average fun j => x j * v j) / deviation

end Moving

section Exact

variable {α : Type} [ExactField α] {n : Nat}

theorem mean_eq_average (x : Tensor α [n]) : mean x = average x.entry := mean_eq_sum x

theorem variance_eq_spread (x : Tensor α [n]) : variance x = spread x.entry := by
  rw [variance, mean_eq_average, mean_eq_average, spread]
  exact congrArg average (funext fun i => by rw [entry_map, Scalar.square, sq])

theorem deviation_eq (l : LayerNorm α [n]) (x : Tensor α [n]) :
    (l.trace x).deviation = Elementary.sqrt (spread x.entry + l.epsilon) := by
  rw [trace, variance_eq_spread]

variable [CharZero α]

theorem sum_normalized (l : LayerNorm α [n]) (x : Tensor α [n]) : ∑ i, (l.trace x).normalized.entry i = 0 := by
  simp only [entry_normalized]
  rw [← Finset.sum_div, sum_sub_mean, zero_div]

theorem inner_backward (l : LayerNorm α [n]) (t : Trace α n) (g : Tensor α [n]) (v : Fin n → α) :
    ∑ i, (l.backward t g).entry i * v i =
      ∑ i, g.entry i * l.weights.scaleAt i * normalizedAlong t.deviation t.normalized.entry v i := by
  have hcomm := sum_normalized_comm t.deviation (l.weights.scaled g).entry t.normalized.entry v
  simp only [ScaleShift.entry_scaled] at hcomm
  refine Eq.trans (Finset.sum_congr rfl fun i _ => ?_) hcomm.symm
  rw [backward, backwardScaled, entry_zipWith, dot_eq_sum_entry, total_eq_sum_entry]
  simp only [ScaleShift.entry_scaled]

/-- Moving a whole row by one and the same number does not move what it is normalized to. -/
theorem normalizedAlong_one (deviation : α) {x : Fin n → α} (hx : ∑ i, x i = 0) (i : Fin n) :
    normalizedAlong deviation x (fun _ => 1) i = 0 := by
  have hn : (n : α) ≠ 0 := Nat.cast_ne_zero.mpr (Nat.ne_of_gt i.pos)
  have hones : average (fun _ : Fin n => (1 : α)) = 1 := by
    rw [average, Finset.sum_const, Finset.card_univ, Fintype.card_fin, nsmul_one, div_self hn]
  have hself : average (fun j => x j * 1) = 0 := by
    simp only [average, mul_one, hx, zero_div]
  rw [normalizedAlong, hones, hself, sub_self, mul_zero, sub_zero, zero_div]

/-- What is passed back through a normalized row adds up to nothing. -/
theorem sum_backward (l : LayerNorm α [n]) (x g : Tensor α [n]) : ∑ i, (l.backward (l.trace x) g).entry i = 0 := by
  calc ∑ i, (l.backward (l.trace x) g).entry i
      = ∑ i, (l.backward (l.trace x) g).entry i * 1 := by simp only [mul_one]
    _ = ∑ i, g.entry i * l.weights.scaleAt i *
          normalizedAlong (l.trace x).deviation (l.trace x).normalized.entry (fun _ => 1) i := inner_backward l _ g _
    _ = 0 := Finset.sum_eq_zero fun i _ => by rw [normalizedAlong_one _ (sum_normalized l x), mul_zero]

end Exact

/-- The way back through a normalization is the transpose of how normalized rows move, along any leading axes, with a scale
and a shift or without.  Every row that is passed back adds up to nothing, and what is collected for scale and shift are the
sums over all places. -/
theorem normalized_transposes {α : Type} [ExactField α] [CharZero α] {n : Nat} {lead : Dims} (l : LayerNorm α [n])
    (hdeclared : (Value.int n).same l.declared) (hbounded : l.bounded) (x g : Tensor α (lead ++ [n])) :
    ∃ (y dx : Tensor α (lead ++ [n])) (traces : Tensor (Trace α n) lead),
      l.forwardBatch ⟨_, x⟩ = .ok (⟨_, y⟩, ⟨lead, traces⟩) ∧
      l.backwardBatch ⟨lead, traces⟩ ⟨_, g⟩ = .ok (⟨_, dx⟩, Weights.named
        (⟨l.weights.gamma.map fun _ => .ofEntries fun i => ∑ p, (g.member p).entry i * (traces.pick p).normalized.entry i,
          l.weights.beta.map fun _ => .ofEntries fun i => ∑ p, (g.member p).entry i⟩ : ScaleShift α [n])) ∧
      ∀ p : Place lead,
        let row := (x.member p).entry
        let deviation := Elementary.sqrt (spread row + l.epsilon)
        (∀ i, (traces.pick p).normalized.entry i = (row i - average row) / deviation) ∧
        (∀ v, ∑ i, (dx.member p).entry i * v i = ∑ i, (g.member p).entry i * l.weights.scaleAt i *
          normalizedAlong deviation (traces.pick p).normalized.entry v i) ∧
        ∑ i, (dx.member p).entry i = 0 := by
  obtain ⟨dx, hback, hplaces⟩ := l.backwardBatch_append ((blocks lead x).map l.trace) g
  refine ⟨join lead (((blocks lead x).map l.trace).map l.output), dx, (blocks lead x).map l.trace,
    forwardBatch_append hdeclared hbounded x, hback, fun p => ?_⟩
  have htrace : ((blocks lead x).map l.trace).pick p = l.trace (x.member p) := pick_map l.trace _ p
  rw [hplaces, htrace]
  intro row deviation
  have hdeviation : (l.trace (x.member p)).deviation = deviation := l.deviation_eq _
  rw [← hdeviation]
  exact ⟨fun i => by rw [entry_normalized, mean_eq_average], inner_backward l _ _, sum_backward l _ _⟩

/-- Two rows of two numbers, with a scale and no shift. -/
theorem normalized_transposes_two :
    let l : LayerNorm ℝ [2] := { epsilon := 1, weights := ⟨some (.fill 3 [2]), none⟩, declared := .int 2 }
    (Value.int (2 : Nat)).same l.declared = true ∧ l.bounded = true ∧
      ∃ (y dx : Tensor ℝ ([2] ++ [2])) (traces : Tensor (Trace ℝ 2) [2]),
        l.forwardBatch ⟨_, .fill 5 ([2] ++ [2])⟩ = .ok (⟨_, y⟩, ⟨[2], traces⟩) ∧
        ∀ p : Place [2], ∑ i, (dx.member p).entry i = 0 := by
  intro l
  have hdeclared : (Value.int (2 : Nat)).same l.declared = true := by decide
  obtain ⟨y, dx, traces, hforward, _, hplaces⟩ :=
    normalized_transposes l hdeclared rfl (fill 5 ([2] ++ [2])) (fill 7 ([2] ++ [2]))
  exact ⟨hdeclared, rfl, y, dx, traces, hforward, fun p => (hplaces p).2.2⟩

end LayerNorm

end LayerStack
