import LayerStack.Proofs.Operator.Transpose.Attention
import LayerStack.Proofs.Operator.Transpose.LayerNorm
import LayerStack.Proofs.Operator.Backward
import LayerStack.Proofs.Tensor.Batch
import LayerStack.Operator.TransformerBlock

/-!
# LayerStack.Proofs.Operator.Transpose.TransformerBlock

The way back through a transformer block.

A sequence goes through four functions, of which two are added to what they were given, and its gradient goes back through
them the other way round (`transposes_output`).  A batch that moves is dropped out by the masks of one that does not: the
numbers of a stream are constants, and so is the rate (`Dropout.masks?_constant`).  So the pass of a moving batch gives the
derivative of the pass with its masks held fixed, and the way back from what that pass left is its transpose
(`backward_transposes`).
-/

namespace LayerStack

open Tensor

namespace TransformerBlock

variable {d h k f s n : Nat}

theorem epsilon_pos : 0 < (epsilon : ℝ) := by
  have hexact : 0 < ((Number.rational? (.double (.ofDecimal false 1 (-6)))).getD 0 : ℚ) := by decide +kernel
  exact Rat.cast_pos.mpr hexact

noncomputable section

/-- A block whose weights do not move. -/
def constant (b : TransformerBlock ℝ d h k f) : TransformerBlock Dual d h k f :=
  { dropout := Dual.constant b.dropout
    weights := ⟨b.attention.constant.weights, b.norm1.constant.weights, b.feedForward.constant.weights,
      b.norm2.constant.weights⟩ }

/-- Masks that do not move. -/
def Masks.constants (m : Masks ℝ d h s) : Masks Dual d h s :=
  ⟨m.attention.map Tensor.constants, m.branch1.map Tensor.constants, m.branch2.map Tensor.constants⟩

/-- The way back through a block is the transpose of its derivative, whatever the masks. -/
theorem transposes_output (b : TransformerBlock ℝ d h k f) (masks : Masks ℝ d h s) :
    Transposes (fun X => b.constant.output (b.constant.trace masks.constants X)) (fun x => b.output (b.trace masks x))
      fun x g => (b.backward (b.trace masks x) g).1 := by
  have hattended := (b.attention.transposes_output masks.attention).comp (Dropout.transposes_masked masks.branch1)
  have hsum1 := hattended.residual
  have hnorm1 := Transposes.rows (n := s) fun _ => LayerNorm.transposes_output (l := b.norm1) epsilon_pos
  have hmiddle := hsum1.comp hnorm1
  have hrows := Transposes.rows (n := s) fun _ => FeedForward.transposes_output (l := b.feedForward) rfl
  have hfed := hrows.comp (Dropout.transposes_masked masks.branch2)
  have hsum2 := hmiddle.comp hfed.residual
  have hnorm2 := Transposes.rows (n := s) fun _ => LayerNorm.transposes_output (l := b.norm2) epsilon_pos
  have hresult := hsum2.comp hnorm2
  simp only [output, normalized, trace, backward, backwardNorm, backwardFeed, entry_ofEntries]
  exact hresult

/-! ### Masks -/

theorem masks_constant (b : TransformerBlock ℝ d h k f) (training : Bool) (lead : Dims) (s : Nat) :
    b.constant.masks training lead s = map Masks.constants <$> b.masks training lead s := by
  have hdropout : b.constant.dropout = Dual.constant b.dropout := rfl
  have hmasks (x : Tensor (Option (Tensor ℝ [h, s, s])) lead) (y z : Tensor (Option (Tensor ℝ [s, d])) lead) :
      zipWith (fun (p : Option (Tensor Dual [h, s, s]) × Option (Tensor Dual [s, d])) m => Masks.mk p.1 p.2 m)
        (zipWith Prod.mk (x.map (Option.map constants)) (y.map (Option.map constants))) (z.map (Option.map constants)) =
        (zipWith (fun p m => Masks.mk p.1 p.2 m) (zipWith Prod.mk x y) z).map Masks.constants := by
    have hpair : zipWith Prod.mk (x.map (Option.map constants)) (y.map (Option.map constants)) =
        (zipWith Prod.mk x y).map (Prod.map (Option.map constants) (Option.map constants)) := by
      rw [zipWith_map_map, map_zipWith]
      rfl
    rw [hpair, zipWith_map_map, map_zipWith]
    rfl
  simp only [masks, hdropout, Dropout.masks?_constant, map_bind, bind_map_left, bind_pure_comp, Functor.map_map, hmasks]

end

/-! ### Batches -/

section Passes

variable {α : Type} [Scalar α] (b : TransformerBlock α d h k f)

/-- A batch of sequences through a block, sequence by sequence. -/
theorem forwardBatch_mk {training : Bool} {stream rest : Stream} {masks : Tensor (Masks α d h s) [n]}
    (hmasks : b.masks training [n] s stream = (masks, rest)) (x : Tensor α [n, s, d]) :
    b.forwardBatch training ⟨[n, s, d], x⟩ stream =
      (.ok (⟨[n, s, d], ofFn fun i => b.output (b.trace (masks.entry i) (x.row i))⟩,
        ⟨s, [n], ofEntries fun i => b.trace (masks.entry i) (x.row i)⟩), rest) := by
  have htraces : zipWith b.trace masks x = ofEntries fun i => b.trace (masks.entry i) (x.row i) :=
    zipWith_eq_ofEntries _ _ _
  have houtputs : (AnyTensor.map b.output ⟨[n], zipWith b.trace masks x⟩).join =
      ⟨[n, s, d], ofFn fun i => b.output (b.trace (masks.entry i) (x.row i))⟩ := by
    rw [htraces, AnyTensor.map_ofEntries, AnyTensor.join_ofEntries]
  rw [← houtputs, ← htraces, forwardBatch, AnyTensor.sequences?_one]
  exact congrArg (fun r : Tensor (Masks α d h s) [n] × Stream => (Except.ok
    ((AnyTensor.map b.output ⟨[n], zipWith b.trace r.1 x⟩).join, BatchTrace.mk s ⟨[n], zipWith b.trace r.1 x⟩), r.2)) hmasks

theorem backwardBatch_mk (traces : Fin n → Trace α d h k f s) (g : Tensor α [n, s, d]) :
    ∃ gradients, b.backwardBatch ⟨s, [n], ofEntries traces⟩ ⟨[n, s, d], g⟩ =
      .ok (⟨[n, s, d], ofFn fun i => (b.backward (traces i) (g.row i)).1⟩, gradients) := by
  let results : AnyTensor (Tensor α [s, d] × BlockWeights α d h k f) :=
    ⟨[n], ofEntries fun i => b.backward (traces i) (g.row i)⟩
  have hresults : AnyTensor.zipWith? (fun t g => b.backward t g) ⟨[n], ofEntries traces⟩ ⟨[n], g⟩ = some results := by
    rw [AnyTensor.zipWith?_one]
    simp only [entry_ofEntries]
    rfl
  have hinput : (results.map (·.1)).join = ⟨[n, s, d], ofFn fun i => (b.backward (traces i) (g.row i)).1⟩ :=
    (congrArg AnyTensor.join (AnyTensor.map_ofEntries _ _)).trans (AnyTensor.join_ofEntries _)
  have hdims : (AnyTensor.mk [n, s, d] g).dims =
      (AnyTensor.map (·.norm2) ⟨[n], ofEntries traces⟩).join.dims ++ [d] := rfl
  obtain ⟨last, hlast, -⟩ := b.norm2.weightGradients_of_dims hdims
  refine ⟨(Weights.named (b.weights.sum (results.map (·.2)).value)).update (withPrefix "norm2" last), fit_some ?_⟩
  simp only [AnyTensor.spreadBlocks?_one, Option.bind_eq_bind, Option.bind_some, hresults, hlast, hinput]
  rfl

end Passes

/-- The way back through a block is the transpose of the derivative of the pass that it goes back through.  The same pass
of a batch that moves draws the same masks and gives the derivative `jv` of the result, by the chain rule: under it a
gradient of the result comes to the same as what is passed back comes to under the direction `v`. -/
theorem backward_transposes (b : TransformerBlock ℝ d h k f) (training : Bool) (stream : Stream)
    (x v g : Tensor ℝ [n, s, d]) :
    ∃ (y jv dx : Tensor ℝ [n, s, d]) (t : BatchTrace ℝ d h k f) (t' : BatchTrace Dual d h k f) (gradients : NamedTensors ℝ)
      (rest : Stream),
      b.forwardBatch training ⟨_, x⟩ stream = (.ok (⟨_, y⟩, t), rest) ∧
      b.constant.forwardBatch training ⟨_, x.along v⟩ stream = (.ok (⟨_, y.along jv⟩, t'), rest) ∧
      b.backwardBatch t ⟨_, g⟩ = .ok (⟨_, dx⟩, gradients) ∧
      g.inner jv = dx.inner v := by
  rcases hmasks : b.masks training [n] s stream with ⟨masks, rest⟩
  have hconstants : b.constant.masks training [n] s stream = (masks.map Masks.constants, rest) := by
    rw [masks_constant]
    exact congrArg (fun r : Tensor (Masks ℝ d h s) [n] × Stream => (r.1.map Masks.constants, r.2)) hmasks
  have hmoving := b.constant.forwardBatch_mk hconstants (x.along v)
  obtain ⟨gradients, hbackward⟩ := b.backwardBatch_mk (fun i => b.trace (masks.entry i) (x.row i)) g
  have htransposes := Transposes.rows fun i => b.transposes_output (masks.entry i)
  have hvalues := htransposes.values (x.along v)
  have hslopes := htransposes.slopes (x.along v) g
  rw [values_along] at hvalues hslopes
  rw [slopes_along] at hslopes
  simp only [entry_map] at hmoving
  rw [← along_eq (ofFn _), hvalues] at hmoving
  exact ⟨_, _, _, _, _, gradients, rest, b.forwardBatch_mk hmasks x, hmoving, hbackward, hslopes⟩

end TransformerBlock

end LayerStack
