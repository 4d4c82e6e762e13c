import LayerStack.Proofs.Operator.Gradient
import LayerStack.Proofs.Operator.Pass
import LayerStack.Proofs.Shape.Window

/-!
# LayerStack.Proofs.Operator.Backward

The way back of every layer.

For a gradient on the axes that a forward pass made, the way back puts its result on the axes that the pass took, and
collects a gradient for each of the weights, under its name and on its axes (`backwardBatch_of_dims`).
-/

namespace LayerStack

variable {α : Type}

open AnyTensor NamedTensors

/-! ## Rows -/

theorem Activation.backwardOnTensor?_of_dims [Scalar α] (a : Activation) {g x : AnyTensor α} (h : g.dims = x.dims) :
    ∃ y, a.backwardOnTensor? g x = some y ∧ y.dims = g.dims := by
  cases a with
  | linear => exact ⟨g, rfl, rfl⟩
  | softmax => exact zipLast?_of_dims _ h
  | _ => exact zipWith?_of_dims _ h

theorem Affine.backwardBatch_of_dims [Zero α] [Add α] [Mul α] {m n : Nat} (a : Affine α m n)
    {inputs : AnyTensor (Tensor α [m])} {g : AnyTensor α} (h : g.dims = inputs.dims ++ [n]) :
    ∃ x w, a.backwardBatch inputs g = .ok (x, w) ∧ x.dims = inputs.dims ++ [m] ∧
      axes (Weights.named w) = axes (Weights.named a) := by
  obtain ⟨rows, hrows, hlead⟩ := blocks?_of_dims h
  obtain ⟨gradients, hgradients, _⟩ := zipWith?_of_dims a.gradient hlead
  refine ⟨(rows.map a.backward).join, a.sum gradients.value, ?_, by simp [hlead], a.axes_sum _⟩
  simp only [backwardBatch, bind_eq_ok, pure_eq_ok, fit_eq_ok]
  exact ⟨rows, hrows, inputs, regroup?_of_dims hlead.symm, gradients, hgradients, rfl⟩

theorem Dense.backwardBatch_of_dims [Scalar α] {m n : Nat} (l : Dense α m n) {rows : AnyTensor (Trace α m n)}
    {g : AnyTensor α} (h : g.dims = rows.dims ++ [n]) :
    ∃ x w, l.backwardBatch rows g = .ok (x, w) ∧ x.dims = rows.dims ++ [m] ∧
      axes (Weights.named w) = axes (Weights.named l.map) := by
  obtain ⟨inner, hinner, hdims⟩ := l.activation.backwardOnTensor?_of_dims (x := (rows.map (·.affine)).join) h
  obtain ⟨x, w, hrun, hx, hw⟩ := l.map.backwardBatch_of_dims
    (show inner.dims = (rows.map (·.input)).dims ++ [n] from hdims.trans h)
  refine ⟨x, w, ?_, hx, hw⟩
  simp only [backwardBatch, bind_eq_ok, fit_eq_ok]
  exact ⟨inner, hinner, hrun⟩

namespace LayerNorm

variable [Scalar α] {n : Nat} {rows : AnyTensor (Trace α n)} {g : AnyTensor α} {lead : Dims}

theorem scaledBatch_of_dims (l : LayerNorm α [n]) (h : g.dims = lead ++ [n]) :
    ∃ d, l.scaledBatch g = some d ∧ d.dims = lead ++ [n] := by
  unfold scaledBatch
  split
  · next gamma hgamma =>
      obtain ⟨d, hd, hdims⟩ := zipWith?_of_append (· * ·) (y := ⟨[n], gamma⟩) h
      exact ⟨d, hd, hdims.trans h⟩
  · exact ⟨g, rfl, h⟩

theorem weightGradients_of_dims (l : LayerNorm α [n]) (h : g.dims = rows.dims ++ [n]) :
    ∃ w, l.weightGradients rows g = some w ∧ axes w = axes (Weights.named l.weights) := by
  obtain ⟨products, hproducts, hdims⟩ := zipWith?_of_dims (· * ·) (y := (rows.map (·.normalized)).join) h
  have hdrop : g.dims.drop (g.rank - 1) = [n] := by simp [rank, h]
  obtain ⟨epsilon, bounded, ⟨_ | gamma, _ | beta⟩, declared⟩ := l
  all_goals
    refine ⟨_, by rw [weightGradients, hproducts]; rfl, ?_⟩
    simp [Weights.named, namedOption, hdims, hdrop]

theorem backwardRows_of_dims (l : LayerNorm α [n]) (h : g.dims = rows.dims ++ [n]) :
    ∃ x w, l.backwardRows rows g = some (x, w) ∧ x.dims = rows.dims ++ [n] ∧
      axes w = axes (Weights.named l.weights) := by
  obtain ⟨d, hd, hdims⟩ := l.scaledBatch_of_dims h
  obtain ⟨family, hfamily, hlead⟩ := spreadBlocks?_of_dims hdims
  obtain ⟨pairs, hpairs, hlead'⟩ := zipWith?_of_dims Prod.mk
    (show family.dims = (d.foldLast Tensor.total).dims by simp [hlead, hdims])
  obtain ⟨inputs, hinputs, hlead''⟩ := zipWith?_of_dims
    (fun t p => backwardScaled (Scalar.ofNumber (.int n)) t p.1 p.2)
    (show rows.dims = pairs.dims by rw [hlead', hlead])
  obtain ⟨w, hw, haxes⟩ := l.weightGradients_of_dims h
  refine ⟨inputs.join, w, ?_, by simp [hlead''], haxes⟩
  simp only [backwardRows, Option.bind_eq_bind, Option.bind_eq_some_iff]
  exact ⟨d, hd, family, hfamily, pairs, hpairs, inputs, hinputs, w, hw, rfl⟩

end LayerNorm

/-! ## Images -/

theorem Conv2D.backwardBatch_of_dims [Scalar α] {z : ConvSizes} (l : Conv2D α z) {t : BatchTrace α z} {g : AnyTensor α}
    (hreturns : z.grid.returns (z.grid.outHeight t.height) (z.grid.outWidth t.width) = true)
    (h : g.dims = t.images.dims ++ z.mapDims t.height t.width) :
    ∃ x w, l.backwardBatch t g = .ok (x, w) ∧ x.dims = t.images.dims ++ z.imageDims t.height t.width ∧
      axes w = axes (Weights.named l.kernel) := by
  obtain ⟨maps, hmaps, hlead⟩ := spreadFamily?_of_dims h
  obtain ⟨pairs, hpairs, hlead'⟩ := zipWith?_of_dims Prod.mk hlead.symm
  refine ⟨(pairs.map fun p => l.backward p.1 p.2).join,
    Weights.named (l.kernel.sum (pairs.map fun p => l.gradient p.1 p.2).value), ?_, by simp [hlead'],
    l.kernel.axes_sum _⟩
  rw [backwardBatch, fit_eq_ok]
  simp [h, hmaps, backwardMaps, hreturns, hpairs]

theorem WindowGrid.poolBackwardBatch_of_dims [Scalar α] {grid : WindowGrid} {t : PoolTrace grid} {g : AnyTensor α}
    (hreturns : grid.returns (grid.outHeight t.height) (grid.outWidth t.width) = true)
    (h : g.dims = t.images.dims ++ [grid.outHeight t.height, grid.outWidth t.width, t.channels]) :
    ∃ x, poolBackwardBatch t g = .ok x ∧ x.dims = t.images.dims ++ [t.height, t.width, t.channels] := by
  obtain ⟨maps, hmaps, hlead⟩ := blocks?_of_dims (x := g.map Scalar.real) h
  obtain ⟨images, himages, hlead'⟩ := zipWith?_of_dims (fun taken u => grid.pooledBackward taken u) hlead.symm
  refine ⟨images.join, ?_, by simp [hlead']⟩
  rw [poolBackwardBatch, fit_eq_ok]
  simp [h, hreturns, hmaps, himages]

/-! ## Tables -/

/-- A row for every token is what there is. -/
theorem Embedding.rows?_of_cut [Zero α] {d : Nat} {x : AnyTensor α} {rows : AnyTensor (Tensor α [d])} {lead : Dims}
    (hrows : x.cut? [d] = some rows) (hlead : rows.dims = lead) : rows? lead x = some rows := by
  unfold rows?
  rw [hrows, Option.bind_eq_bind, Option.bind_some, regroup?_of_dims hlead]
  rfl

theorem Embedding.backwardBatch_of_dims [Zero α] [Add α] [NatCast α] {v d : Nat} (e : Embedding α v d)
    {tokens : AnyTensor (Fin v)} {g : AnyTensor α} (hd : 0 < d) (h : g.dims = tokens.dims ++ [d]) :
    ∃ x w, e.backwardBatch tokens g = .ok (x, w) ∧ x.dims = tokens.dims ∧ w.isSome = e.trainable := by
  obtain ⟨rows, hrows, hlead⟩ := cut?_of_dims (x := g.map Scalar.real) (Dims.volume_pos (by simpa using hd)) h
  obtain ⟨uses, huses, _⟩ := zipWith?_of_dims Prod.mk hlead.symm
  have hrows' := rows?_of_cut hrows hlead
  unfold backwardBatch
  split
  · next htrainable =>
      refine ⟨tokens.map fun _ => 0, some (gradient uses.value), ?_, rfl, htrainable.symm⟩
      simp only [bind_eq_ok, pure_eq_ok, fit_eq_ok]
      exact ⟨rows, hrows', uses, huses, rfl⟩
  · next htrainable => exact ⟨tokens.map fun _ => 0, none, rfl, rfl, by simpa using htrainable⟩

theorem PositionTable.gradientBatch_of_dims [Zero α] [Add α] {n d length : Nat} {g : AnyTensor α} {lead : Dims}
    (hlength : 0 < length) (hd : 0 < d) (h : g.dims = lead ++ [length, d]) :
    ∃ w : Tensor α [n, d], gradientBatch length g = .ok w := by
  obtain ⟨sequences, hsequences, _⟩ := cut?_of_dims (Dims.volume_pos (by simp [hlength, hd])) h
  exact ⟨_, by rw [gradientBatch, fit_some hsequences]; rfl⟩

/-! ## Sequences -/

theorem MultiHeadAttention.backwardBatch_of_dims [Scalar α] {d h k v : Nat} (l : MultiHeadAttention α d h k v)
    {t : BatchTrace α d h k v} {g : AnyTensor α} (hg : g.dims = t.sequences.dims ++ [t.length, d]) :
    ∃ x w, l.backwardBatch t g = .ok (x, w) ∧ x.dims = t.sequences.dims ++ [t.length, d] ∧
      axes (Weights.named w) = axes (Weights.named l.weights) := by
  obtain ⟨gs, hgs, hlead⟩ := blocks?_of_dims hg
  obtain ⟨results, hresults, hlead'⟩ := zipWith?_of_dims (fun t g => l.backward t g) hlead.symm
  refine ⟨(results.map (·.1)).join, l.weights.sum (results.map (·.2)).value, ?_, by simp [hlead'],
    l.weights.axes_sum _⟩
  simp only [backwardBatch, bind_eq_ok, pure_eq_ok, fit_eq_ok]
  exact ⟨gs, hgs, results, hresults, rfl⟩

theorem TransformerBlock.backwardBatch_of_dims [Scalar α] {d h k f : Nat} (b : TransformerBlock α d h k f)
    {t : BatchTrace α d h k f} {g : AnyTensor α} (hg : g.dims = t.sequences.dims ++ [t.length, d]) :
    ∃ x w, b.backwardBatch t g = .ok (x, w) ∧ x.dims = t.sequences.dims ++ [t.length, d] ∧
      axes w = axes (Weights.named b.weights) := by
  obtain ⟨gs, hgs, hlead⟩ := spreadBlocks?_of_dims hg
  obtain ⟨results, hresults, hlead'⟩ := zipWith?_of_dims (fun t g => b.backward t g) hlead.symm
  obtain ⟨last, hlast, haxes⟩ := b.norm2.weightGradients_of_dims
    (show g.dims = (t.sequences.map (·.norm2)).join.dims ++ [d] by simp [hg])
  refine ⟨(results.map (·.1)).join,
    NamedTensors.update (Weights.named (b.weights.sum (results.map (·.2)).value)) (withPrefix "norm2" last), ?_,
    by simp [hlead'], ?_⟩
  · rw [backwardBatch, fit_eq_ok]
    simp [hgs, hresults, hlast]
  · -- The last normalization's gradients come anew, on the axes that its weights have already.
    rw [axes_update (BlockWeights.nodup_named _), BlockWeights.axes_sum]
    rw [BlockWeights.axes_sum, BlockWeights.axes_named, axes_withPrefix, haxes]
    exact List.subset_append_right _ _

/-! ## Axes taken away -/

theorem Flatten.backwardBatch_of_dims [Zero α] {b : Nat} {s : Dims} {g : AnyTensor α}
    (h : g.dims = [b, Dims.volume s]) : ∃ x, backwardBatch (b :: s) g = .ok x ∧ x.dims = b :: s := by
  have hsize : g.size = Dims.volume (b :: s) := by simp [size, h, Dims.volume]
  exact ⟨_, if_pos hsize, rfl⟩

theorem Average.backwardBatch_of_dims [Div α] [NatCast α] {b n : Nat} {s : Dims} {g : AnyTensor α}
    (h : g.dims = b :: s) : ∃ x, backwardBatch (b :: n :: s) g = .ok x ∧ x.dims = b :: n :: s := by
  obtain ⟨dims, value⟩ := g
  obtain rfl : dims = b :: s := h
  have hrow (row : Tensor α (1 :: s)) : (row.stretch? (n :: s)).isSome := Tensor.isSome_stretch?_row row n
  have hstretch (x : Tensor α (b :: 1 :: s)) : (x.stretch? (b :: n :: s)).isSome :=
    Tensor.isSome_stretch?_cons (by simp) hrow x
  obtain ⟨y, hy⟩ := Option.isSome_iff_exists.mp (hstretch _)
  refine ⟨⟨b :: n :: s, y⟩, ?_, rfl⟩
  rw [backwardBatch, spread?, fit_some hy]
  rfl

/-! ## Operators -/

namespace Operator

/-- There is a gradient for every parameter of an operator, in their order, under their names and on their axes. -/
def Covered (o : Operator α) : Prop :=
  o.gradients.map (fun (name, g) => (name, g.map AnyTensor.dims)) = o.parameters.map fun (name, x) => (name, some x.dims)

theorem covered_of_gradient {o : Operator α} {gradient : NamedTensors α} (h : o.gradient? = some gradient)
    (haxes : axes gradient = axes o.parameters) : o.Covered := by
  have hpresent (named : NamedTensors α) : (named.map fun (name, x) => (name, some x.dims)) =
      (axes named).map fun (name, dims) => (name, some dims) := by
    simp [axes]
  rw [Covered, gradients, h]
  simp only [List.map_map, Function.comp_def, Option.map_some]
  rw [hpresent, hpresent, haxes]

theorem covered_of_nil {o : Operator α} (h : o.parameters = []) (hgradient : o.gradient? = none) : o.Covered := by
  simp [Covered, gradients, h, hgradient]

/-- A way back: to the given axes, with gradients on the axes of the given weights. -/
def Returns (s : Dims) (weights : NamedTensors α) (result : Except RunError (AnyTensor α × NamedTensors α)) : Prop :=
  ∃ x w, result = .ok (x, w) ∧ x.dims = s ∧ axes w = axes weights

theorem returns_named {W : Type} [Weights W α] {s : Dims} {weights : W} {result : Except RunError (AnyTensor α × W)}
    (h : ∃ x w, result = .ok (x, w) ∧ x.dims = s ∧ axes (Weights.named w) = axes (Weights.named weights)) :
    Returns s (Weights.named weights) (namedGradient result) := by
  obtain ⟨x, w, rfl, hx, hw⟩ := h
  exact ⟨x, Weights.named w, rfl, hx, hw⟩

/-- An operator that keeps its layer in a cell is covered by a way back that returns. -/
theorem covered_wayBack {L T : Type} {c : Cell α L T} (make : Cell α L T → Operator α)
    (hmake : ∀ c, (make c).gradient? = c.gradient) {trace : T} (htrace : c.trace = some trace) {s : Dims}
    {run : T → Except RunError (AnyTensor α × NamedTensors α)} {weights : NamedTensors α}
    (hweights : ∀ gradient, (make { c with gradient }).parameters = weights) (hrun : Returns s weights (run trace)) :
    ∃ x, ((c.wayBack run).map id make).1 = .ok x ∧ x.dims = s ∧ Covered ((c.wayBack run).map id make).2 := by
  obtain ⟨x, w, hok, hx, haxes⟩ := hrun
  rw [Cell.wayBack_of_trace htrace hok]
  exact ⟨x, rfl, hx, covered_of_gradient (hmake _) (haxes.trans (by rw [← hweights (some w)]; rfl))⟩

variable [Scalar α] {config : LayerConfig} {shape out : Shape} {s t : Dims} {o : Operator α} {g : AnyTensor α}

/-- A table of tokens that is not trained has neither a parameter nor a gradient. -/
theorem backwardEmbedding_of_dims {v d : Nat} {c : Cell α (Embedding α v d) (AnyTensor (Fin v))}
    {tokens : AnyTensor (Fin v)} (htrace : c.trace = some tokens) (hd : 0 < d) (hg : g.dims = tokens.dims ++ [d]) :
    ∃ x, (backwardEmbedding c g).1 = .ok x ∧ x.dims = tokens.dims ∧ Covered (backwardEmbedding c g).2 := by
  obtain ⟨x, w, hrun, hx, hw⟩ := c.layer.backwardBatch_of_dims hd hg
  simp only [backwardEmbedding, htrace, hrun]
  refine ⟨x, rfl, hx, ?_⟩
  cases w with
  | some table =>
      have htrainable : c.layer.trainable = true := hw.symm
      refine covered_of_gradient rfl ?_
      simp [parameters, htrainable, embeddingTable]
  | none =>
      have htrainable : c.layer.trainable = false := hw.symm
      exact covered_of_nil (by simp [parameters, htrainable]) rfl

/-- Nor has a table of positions that is not trained, which never collects one. -/
theorem backwardPositions_of_dims {n d length : Nat} {c : Cell α (PositionTable α n d) Nat} {lead : Dims}
    (hgradient : c.layer.learned = false → c.gradient = none) (htrace : c.trace = some length)
    (hlength : 0 < length) (hd : 0 < d) (hg : g.dims = lead ++ [length, d]) :
    ∃ x, (backwardPositions c g).1 = .ok x ∧ x.dims = lead ++ [length, d] ∧ Covered (backwardPositions c g).2 := by
  cases hlearned : c.layer.learned with
  | true =>
      obtain ⟨table, hrun⟩ := PositionTable.gradientBatch_of_dims (n := n) hlength hd hg
      simp only [backwardPositions, hlearned, if_true]
      have hweights (gradient : Option (NamedTensors α)) :
          (Operator.positions { c with gradient }).parameters = encodingTable c.layer.table := by
        simp only [parameters, hlearned]
        rfl
      refine covered_wayBack .positions (fun _ => rfl) htrace hweights ⟨g, encodingTable table, ?_, hg, rfl⟩
      simp only [hrun]
      rfl
  | false =>
      simp only [backwardPositions, hlearned]
      exact ⟨g, rfl, hg, covered_of_nil (by simp [parameters, hlearned]) (hgradient hlearned)⟩

/-- A gradient on the axes that an operator made goes back to those it took, and leaves a gradient for every
parameter. -/
theorem backward_of_left (hmade : MadeFor config shape o) (hvalid : config.Valid)
    (hmakes : LayerConfig.Makes config shape out) (hleft : Left s t o) (hfeeds : Feeds shape s) (hg : g.dims = t) : ∃ x, (o.backward g).1 = .ok x ∧ x.dims = s ∧ Covered (o.backward g).2 := by
  cases hleft with
  | dense htrace hs ht =>
      subst hs
      exact covered_wayBack .dense (fun _ => rfl) htrace (fun _ => rfl)
        (returns_named (Dense.backwardBatch_of_dims _ (hg.trans ht)))
  | @conv2d _ cell _ _ batch htrace hfits hs ht =>
      subst hs
      cases hmade with
      | conv2d =>
          obtain ⟨_, _, hstrides⟩ := hvalid
          exact covered_wayBack .conv2d (fun _ => rfl) htrace (fun _ => rfl)
            (Conv2D.backwardBatch_of_dims _ (WindowGrid.returns_ofSizes hstrides _ _) (hg.trans ht))
  | maxPool2D hfits hs ht =>
      subst hs
      cases hmade with
      | maxpool2d =>
          obtain ⟨_, hstrides⟩ := hvalid
          obtain ⟨x, hrun, hx⟩ :=
            WindowGrid.poolBackwardBatch_of_dims (WindowGrid.returns_ofSizes hstrides _ _) (hg.trans ht)
          exact ⟨x, hrun, hx, covered_of_nil rfl rfl⟩
  | @dropout rate mask _ hmask =>
      cases mask with
      | none => exact ⟨g, rfl, hg, covered_of_nil rfl rfl⟩
      | some m =>
          obtain ⟨x, hx, hdims⟩ := zipWith?_of_dims (· * ·) (hg.trans (hmask m rfl).symm)
          exact ⟨x, fit_some hx, hdims.trans hg, covered_of_nil rfl rfl⟩
  | flatten =>
      obtain ⟨x, hrun, hx⟩ := Flatten.backwardBatch_of_dims hg
      exact ⟨x, hrun, hx, covered_of_nil rfl rfl⟩
  | average =>
      obtain ⟨x, hrun, hx⟩ := Average.backwardBatch_of_dims hg
      exact ⟨x, hrun, hx, covered_of_nil rfl rfl⟩
  | layerNorm htrace hs =>
      subst hs
      obtain ⟨x, w, hrun, hx, hw⟩ := LayerNorm.backwardRows_of_dims _ hg
      exact covered_wayBack .layerNorm (fun _ => rfl) htrace (fun _ => rfl) ⟨x, w, fit_some hrun, hx, hw⟩
  | embedding htrace hs ht =>
      cases hmade with
      | embedding =>
          have hwidth := hvalid.2.1
          obtain ⟨x, hrun, hx, hcovered⟩ := backwardEmbedding_of_dims htrace (by omega) (hg.trans ht)
          exact ⟨x, hrun, hx.trans hs.symm, hcovered⟩
  | positions htrace hs =>
      cases hmade with
      | positionalEncoding _ _ _ hgradient =>
          rw [hs] at hfeeds
          cases hmakes
          obtain ⟨_, _, hpositive⟩ := hfeeds.lead_eq rfl
          obtain ⟨x, hrun, hx, hcovered⟩ := backwardPositions_of_dims hgradient htrace (hpositive _ (by simp))
            (hpositive _ (by simp)) (hg.trans hs)
          exact ⟨x, hrun, hx.trans hs.symm, hcovered⟩
  | attention htrace hs =>
      subst hs
      exact covered_wayBack .attention (fun _ => rfl) htrace (fun _ => rfl)
        (returns_named (MultiHeadAttention.backwardBatch_of_dims _ hg))
  | feedForward htrace hs => cases hmade
  | transformerBlock htrace hs =>
      subst hs
      exact covered_wayBack .transformerBlock (fun _ => rfl) htrace (fun _ => rfl)
        (TransformerBlock.backwardBatch_of_dims _ hg)

end Operator

end LayerStack
