import LayerStack.Proofs.Operator.Forward
import LayerStack.Proofs.Operator.Made

/-!
# LayerStack.Proofs.Operator.Pass

What the passes of an operator do to it, and to the axes of what goes through.

An operator stays made for its layer whatever goes through it (`madeFor_forward`, `madeFor_backward`) and however its
parameters are changed (`madeFor_change`).  What a forward pass leaves knows the axes of the batch it took and of the one
it made (`Left`).
-/

namespace LayerStack

variable {α : Type}

namespace Cell

variable {L T β : Type} {c : Cell α L T}

@[simp] theorem layer_pass (c : Cell α L T) (result : Except RunError (β × T)) :
    (c.pass result).2.layer = c.layer := by
  cases result <;> rfl

@[simp] theorem gradient_pass (c : Cell α L T) (result : Except RunError (β × T)) :
    (c.pass result).2.gradient = c.gradient := by
  cases result <;> rfl

@[simp] theorem layer_wayBack (c : Cell α L T) (run : T → Except RunError (β × NamedTensors α)) :
    (c.wayBack run).2.layer = c.layer := by
  unfold wayBack
  split
  · rfl
  · split <;> rfl

theorem pass_of_ok {result : Except RunError (β × T)} {y : β} {t : T} (h : result = .ok (y, t)) :
    (c.pass result).1 = .ok y := by
  subst h
  rfl

/-- A pass that succeeds leaves its trace. -/
theorem pass_eq_ok {result : Except RunError (β × T)} {y : β} (h : (c.pass result).1 = .ok y) :
    ∃ t, result = .ok (y, t) ∧ (c.pass result).2.trace = some t := by
  cases result with
  | error e => contradiction
  | ok r =>
      obtain ⟨y', t⟩ := r
      obtain rfl : y' = y := Except.ok.inj h
      exact ⟨t, rfl, rfl⟩

/-- A way back that succeeds leaves its gradients. -/
theorem wayBack_of_trace {run : T → Except RunError (β × NamedTensors α)} {t : T} {y : β} {gradient : NamedTensors α}
    (htrace : c.trace = some t) (hrun : run t = .ok (y, gradient)) :
    c.wayBack run = (.ok y, { c with gradient := some gradient }) := by
  simp only [wayBack, htrace, hrun]

end Cell

namespace Operator

variable [Scalar α] {config : LayerConfig} {shape out : Shape} {o : Operator α}

/-! ## What an operator is made for -/

theorem madeFor_forward (h : MadeFor config shape o) (training : Bool) (x : AnyTensor α) (stream : Stream) :
    MadeFor config shape (o.forward training x stream).1.2 := by
  cases h with
  | dense cell => exact .dense _
  | conv2d cell => exact .conv2d _
  | @maxpool2d c _ trace =>
      rcases hpool : (WindowGrid.ofSizes c.pool c.strides c.padding).poolBatch x with e | ⟨y, trace⟩
      · simp only [forward, hpool]
        exact .maxpool2d _
      · simp only [forward, hpool]
        exact .maxpool2d _
  | dropout rate mask =>
      simp only [forward]
      split <;> exact .dropout _ _
  | flatten dims => exact .flatten _
  | embedding cell => exact .embedding _
  | multiHeadAttention cell => exact .multiHeadAttention _
  | layerNorm cell hbounded hdeclared =>
      refine .layerNorm (cell.pass (cell.layer.forwardBatch x)).2 ?_ ?_
      · rw [Cell.layer_pass, hbounded]
      · rw [Cell.layer_pass, hdeclared]
  | positionalEncoding cell hgreatest hfits hgradient =>
      refine .positionalEncoding (cell.pass (cell.layer.forwardBatch x)).2 ?_ ?_ ?_
      · rw [Cell.layer_pass, hgreatest]
      · rw [Cell.layer_pass, hfits]
      · rw [Cell.layer_pass, Cell.gradient_pass]
        exact hgradient
  | transformerBlock cell => exact .transformerBlock _
  | globalAvgPool1d dims => exact .globalAvgPool1d _

theorem madeFor_backward (h : MadeFor config shape o) (g : AnyTensor α) : MadeFor config shape (o.backward g).2 := by
  cases h with
  | dense cell => exact .dense _
  | conv2d cell => exact .conv2d _
  | maxpool2d trace => cases trace <;> exact .maxpool2d _
  | dropout rate mask => cases mask <;> exact .dropout _ _
  | flatten dims => cases dims <;> exact .flatten _
  | embedding cell =>
      simp only [backward, backwardEmbedding]
      split
      · exact .embedding _
      · split <;> exact .embedding _
  | multiHeadAttention cell => exact .multiHeadAttention _
  | layerNorm cell hbounded hdeclared =>
      refine .layerNorm (cell.wayBack fun t => cell.layer.backwardBatch t g).2 ?_ ?_
      · rw [Cell.layer_wayBack, hbounded]
      · rw [Cell.layer_wayBack, hdeclared]
  | positionalEncoding cell hgreatest hfits hgradient =>
      simp only [backward, backwardPositions]
      split
      · next hlearned =>
          refine .positionalEncoding (cell.wayBack _).2 ?_ ?_ ?_
          · rw [Cell.layer_wayBack, hgreatest]
          · rw [Cell.layer_wayBack, hfits]
          · rw [Cell.layer_wayBack, hlearned]
            exact nofun
      · exact .positionalEncoding _ hgreatest hfits hgradient
  | transformerBlock cell => exact .transformerBlock _
  | globalAvgPool1d dims => cases dims <;> exact .globalAvgPool1d _

omit [Scalar α] in
theorem madeFor_change (h : MadeFor config shape o) (f : TensorChange α) : MadeFor config shape (o.change f) := by
  cases h with
  | dense cell => exact .dense _
  | conv2d cell => exact .conv2d _
  | maxpool2d trace => exact .maxpool2d _
  | dropout rate mask => exact .dropout _ _
  | flatten dims => exact .flatten _
  | embedding cell =>
      simp only [change]
      split <;> exact .embedding _
  | multiHeadAttention cell => exact .multiHeadAttention _
  | layerNorm cell hbounded hdeclared => exact .layerNorm _ hbounded hdeclared
  | positionalEncoding cell hgreatest hfits hgradient =>
      simp only [change]
      split <;> exact .positionalEncoding _ hgreatest hfits hgradient
  | transformerBlock cell => exact .transformerBlock _
  | globalAvgPool1d dims => exact .globalAvgPool1d _

/-! ## What a forward pass leaves -/

/-- An operator after a forward pass that took a batch on the axes `s` and made one on the axes `t`. -/
inductive Left : Dims → Dims → Operator α → Prop
  | dense {m n : Nat} {cell : Cell α (Dense α m n) (AnyTensor (Dense.Trace α m n))} {s t : Dims}
    {rows : AnyTensor (Dense.Trace α m n)} (htrace : cell.trace = some rows) (hs : s = rows.dims ++ [m])
    (ht : t = rows.dims ++ [n]) : Left s t (.dense cell)
  | conv2d {z : ConvSizes} {cell : Cell α (Conv2D α z) (Conv2D.BatchTrace α z)} {s t : Dims}
    {batch : Conv2D.BatchTrace α z} (htrace : cell.trace = some batch)
    (hfits : z.grid.fits batch.height batch.width = true)
    (hs : s = batch.images.dims ++ z.imageDims batch.height batch.width)
    (ht : t = batch.images.dims ++ z.mapDims batch.height batch.width) : Left s t (.conv2d cell)
  | maxPool2D {grid : WindowGrid} {s t : Dims} {batch : WindowGrid.PoolTrace grid}
    (hfits : grid.fits batch.height batch.width = true)
    (hs : s = batch.images.dims ++ [batch.height, batch.width, batch.channels])
    (ht : t = batch.images.dims ++ [grid.outHeight batch.height, grid.outWidth batch.width, batch.channels]) :
    Left s t (.maxPool2D grid (some batch))
  | dropout {rate : α} {mask : Option (AnyTensor α)} {s : Dims} (hmask : ∀ m, mask = some m → m.dims = s) :
    Left s s (.dropout rate mask)
  | flatten {b : Nat} {s : Dims} : Left (b :: s) [b, Dims.volume s] (.flatten (some (b :: s)))
  | average {b n : Nat} {s : Dims} : Left (b :: n :: s) (b :: s) (.average (some (b :: n :: s)))
  | layerNorm {n : Nat} {cell : Cell α (LayerNorm α [n]) (AnyTensor (LayerNorm.Trace α (LayerNorm.width [n])))}
    {s : Dims} {rows : AnyTensor (LayerNorm.Trace α (LayerNorm.width [n]))} (htrace : cell.trace = some rows)
    (hs : s = rows.dims ++ [n]) : Left s s (.layerNorm cell)
  | embedding {v d : Nat} {cell : Cell α (Embedding α v d) (AnyTensor (Fin v))} {s t : Dims} {tokens : AnyTensor (Fin v)}
    (htrace : cell.trace = some tokens) (hs : s = tokens.dims) (ht : t = tokens.dims ++ [d]) :
    Left s t (.embedding cell)
  | positions {n d length : Nat} {cell : Cell α (PositionTable α n d) Nat} {s lead : Dims}
    (htrace : cell.trace = some length) (hs : s = lead ++ [length, d]) : Left s s (.positions cell)
  | attention {d h k v : Nat} {cell : Cell α (MultiHeadAttention α d h k v) (MultiHeadAttention.BatchTrace α d h k v)}
    {s : Dims} {batch : MultiHeadAttention.BatchTrace α d h k v} (htrace : cell.trace = some batch)
    (hs : s = batch.sequences.dims ++ [batch.length, d]) : Left s s (.attention cell)
  | feedForward {d f : Nat} {cell : Cell α (FeedForward α d f) (AnyTensor (FeedForward.Trace α d f))} {s : Dims}
    {rows : AnyTensor (FeedForward.Trace α d f)} (htrace : cell.trace = some rows) (hs : s = rows.dims ++ [d]) :
    Left s s (.feedForward cell)
  | transformerBlock {d h k f : Nat}
    {cell : Cell α (TransformerBlock α d h k f) (TransformerBlock.BatchTrace α d h k f)} {s : Dims}
    {batch : TransformerBlock.BatchTrace α d h k f} (htrace : cell.trace = some batch)
    (hs : s = batch.sequences.dims ++ [batch.length, d]) : Left s s (.transformerBlock cell)

/-- Every pass that succeeds leaves the axes of what it took and made. -/
theorem left_of_forward {training : Bool} {x y : AnyTensor α} {stream : Stream}
    (h : (o.forward training x stream).1.1 = .ok y) : Left x.dims y.dims (o.forward training x stream).1.2 := by
  cases o with
  | dense cell =>
      obtain ⟨rows, hrun, htrace⟩ := Cell.pass_eq_ok h
      obtain ⟨hs, ht⟩ := Dense.dims_of_forwardBatch hrun
      exact .dense htrace hs ht
  | conv2d cell =>
      obtain ⟨batch, hrun, htrace⟩ := Cell.pass_eq_ok h
      obtain ⟨hs, ht⟩ := Conv2D.dims_of_forwardBatch hrun
      exact .conv2d htrace (Conv2D.fits_of_forwardBatch hrun) hs ht
  | maxPool2D grid trace =>
      rcases hpool : grid.poolBatch x with e | ⟨y', batch⟩
      · simp only [forward, hpool] at h
        contradiction
      · simp only [forward, hpool] at h ⊢
        obtain rfl : y' = y := Except.ok.inj h
        obtain ⟨hs, ht⟩ := WindowGrid.dims_of_poolBatch hpool
        exact .maxPool2D (WindowGrid.fits_of_poolBatch hpool) hs ht
  | dropout rate mask =>
      simp only [forward] at h ⊢
      split at h
      · next hactive =>
          obtain rfl := Except.ok.inj h
          simp only [if_pos hactive]
          exact .dropout fun m hm => (Option.some.inj hm).symm ▸ rfl
      · next hactive =>
          obtain rfl := Except.ok.inj h
          simp only [if_neg hactive]
          exact .dropout nofun
  | flatten dims =>
      obtain ⟨b, s, hs, ht⟩ := Flatten.dims_of_forwardBatch h
      simp only [forward]
      rw [hs, ht]
      exact .flatten
  | average dims =>
      obtain ⟨b, n, s, hs, ht⟩ := Average.dims_of_forwardBatch h
      simp only [forward]
      rw [hs, ht]
      exact .average
  | @layerNorm s cell =>
      obtain ⟨rows, hrun, htrace⟩ := Cell.pass_eq_ok h
      obtain ⟨n, rfl, hs, ht⟩ := LayerNorm.dims_of_forwardBatch hrun
      rw [hs, ht]
      exact .layerNorm htrace rfl
  | embedding cell =>
      obtain ⟨tokens, hrun, htrace⟩ := Cell.pass_eq_ok h
      obtain ⟨hs, ht⟩ := Embedding.dims_of_forwardBatch hrun
      exact .embedding htrace hs ht
  | positions cell =>
      obtain ⟨length, hrun, htrace⟩ := Cell.pass_eq_ok h
      obtain ⟨lead, hs, ht⟩ := PositionTable.dims_of_forwardBatch hrun
      rw [hs, ht]
      exact .positions htrace rfl
  | attention cell =>
      obtain ⟨batch, hrun, htrace⟩ := Cell.pass_eq_ok h
      obtain ⟨hs, ht⟩ := MultiHeadAttention.dims_of_forwardBatch hrun
      rw [hs, ht]
      exact .attention htrace rfl
  | feedForward cell =>
      obtain ⟨rows, hrun, htrace⟩ := Cell.pass_eq_ok h
      obtain ⟨hs, ht⟩ := FeedForward.dims_of_forwardBatch hrun
      rw [hs, ht]
      exact .feedForward htrace rfl
  | transformerBlock cell =>
      obtain ⟨batch, hrun, htrace⟩ := Cell.pass_eq_ok h
      obtain ⟨hs, ht⟩ := TransformerBlock.dims_of_forwardBatch hrun
      rw [hs, ht]
      exact .transformerBlock htrace rfl
  | undefined => contradiction

/-! ## Axes along a chain -/

/-- The axes of a batch of samples of the rank of a shape, none of whose axes is empty. -/
structure Feeds (shape : Shape) (s : Dims) : Prop where
  rank : s.length = shape.length + 1
  positive : ∀ n ∈ s.tail, 0 < n

/-- A batch behind which there are as many axes as a shape has is one along a single axis. -/
theorem Feeds.lead_eq {lead t : Dims} (h : Feeds shape (lead ++ t)) (ht : t.length = shape.length) :
    ∃ b, lead = [b] ∧ ∀ n ∈ t, 0 < n := by
  have hrank := h.rank
  rw [List.length_append, ht, Nat.add_comm, Nat.add_left_cancel_iff] at hrank
  obtain ⟨b, rfl⟩ := List.length_eq_one_iff.mp hrank
  exact ⟨b, rfl, h.positive⟩

omit [Scalar α] in
/-- An operator that takes a batch without empty axes makes such a batch.  A plan may count the entries of a flattened
shape as something else, but the rank it gives is that of the batch. -/
theorem Left.feeds {s t : Dims} (hleft : Left s t o) (hmade : MadeFor config shape o) (hvalid : config.Valid)
    (hmakes : LayerConfig.Makes config shape out) (h : Feeds shape s) : Feeds out t := by
  have htoNat {n : Int} (hn : 1 ≤ n) : 0 < n.toNat := by omega
  cases hleft with
  | dense htrace hs ht =>
      subst hs ht
      cases hmade
      cases hmakes
      obtain ⟨b, hb, -⟩ := h.lead_eq rfl
      rw [hb]
      exact ⟨rfl, List.forall_mem_singleton.mpr (htoNat hvalid)⟩
  | conv2d htrace hfits hs ht =>
      subst hs ht
      cases hmade
      cases hmakes
      obtain ⟨b, hb, -⟩ := h.lead_eq rfl
      obtain ⟨hheight, hwidth⟩ := WindowGrid.out_pos_of_fits hfits
      rw [hb]
      exact ⟨rfl, List.forall_mem_cons.mpr ⟨hheight, List.forall_mem_cons.mpr ⟨hwidth,
        List.forall_mem_singleton.mpr (htoNat hvalid.1)⟩⟩⟩
  | maxPool2D hfits hs ht =>
      subst hs ht
      cases hmade
      cases hmakes
      obtain ⟨b, hb, hpositive⟩ := h.lead_eq rfl
      obtain ⟨hheight, hwidth⟩ := WindowGrid.out_pos_of_fits hfits
      rw [hb]
      exact ⟨rfl, List.forall_mem_cons.mpr ⟨hheight, List.forall_mem_cons.mpr ⟨hwidth,
        List.forall_mem_singleton.mpr (hpositive _ (by simp))⟩⟩⟩
  | flatten =>
      cases hmade
      cases hmakes
      exact ⟨rfl, List.forall_mem_singleton.mpr (Dims.volume_pos h.positive)⟩
  | average =>
      cases hmade
      cases hmakes
      exact ⟨by simpa using h.rank, fun n hn => h.positive n (List.mem_cons_of_mem _ hn)⟩
  | embedding htrace hs ht =>
      subst hs ht
      cases hmade
      cases hmakes
      obtain ⟨b, n, hb⟩ := List.length_eq_two.mp h.rank
      rw [hb] at h ⊢
      exact ⟨rfl, List.forall_mem_cons.mpr ⟨h.positive n (by simp),
        List.forall_mem_singleton.mpr (htoNat hvalid.2.1)⟩⟩
  | dropout | layerNorm | positions | attention | transformerBlock =>
      cases hmade
      cases hmakes
      exact h
  | feedForward => cases hmade

end Operator

end LayerStack
