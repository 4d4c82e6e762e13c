import LayerStack.Proofs.Model.Dropout
import LayerStack.Proofs.Operator.Layout
import LayerStack.Proofs.Shape.Counted
import LayerStack.Proofs.Training.Exercise
import Mathlib.Tactic.Ring

/-!
# LayerStack.Proofs.Model.Count

How many weights a model has.

The settings of a layer and the width of the rows it takes tell how many weights it has: those that training moves
(`LayerConfig.weights`) and those that it leaves alone (`LayerConfig.frozenWeights`).  A fresh operator has as many
entries, however it is put together (`count_of_build`).  So the counts of a compiled model are sums over the layers of
its plan, and since no two parameters have the same name, none of them is lost when they are collected by name
(`counts_as_planned`).
-/

namespace LayerStack

variable {α : Type}

/-! ## The counts of a plan -/

/-- The weights of self-attention over rows of width `d`: the maps of queries and keys, of values, and of answers, and
their biases where there are any. -/
def attentionWeights (d h k v : Int) (useBias : Bool) : Int :=
  h * (2 * k + 2 * v) * d + useBias.toNat * (2 * h * k + h * v + d)

namespace LayerConfig

/-- How many weights of a layer that takes a shape are moved by training. -/
def weights (config : LayerConfig) (shape : Shape) : Int :=
  let d := shape.getLastD 0
  match config with
  | .dense c => c.units * d + c.units * c.useBias.toNat
  | .conv2d c => c.kernel.1 * c.kernel.2 * d * c.filters + c.filters * c.useBias.toNat
  | .embedding c => c.vocabulary * c.dimension * c.trainable.toNat
  | .layerNorm c => d * (c.scale.toNat + c.center.toNat)
  | .positionalEncoding greatest encoding => greatest * d * (encoding == .learned).toNat
  | .multiHeadAttention c => attentionWeights d c.heads c.keyWidth c.valueSize c.useBias
  | .transformerBlock c =>
    attentionWeights d c.heads c.keyWidth c.keyWidth true + 4 * d + (2 * d * c.hidden + c.hidden + d)
  | .maxpool2d _ | .dropout _ | .flatten | .globalAvgPool1d => 0

/-- How many weights of a layer are left alone by training. -/
def frozenWeights : LayerConfig → Int
  | .embedding c => c.vocabulary * c.dimension * (!c.trainable).toNat
  | .dense _ | .conv2d _ | .maxpool2d _ | .dropout _ | .flatten | .multiHeadAttention _ | .layerNorm _
  | .positionalEncoding .. | .transformerBlock _ | .globalAvgPool1d => 0

end LayerConfig

/-! ## Entries of weights -/

namespace Operator

@[simp] theorem entryCount_nil : entryCount ([] : NamedTensors α) = 0 := rfl

@[simp] theorem entryCount_cons (name : String) (x : AnyTensor α) (tensors : NamedTensors α) :
    entryCount ((name, x) :: tensors) = x.size + entryCount tensors := rfl

@[simp] theorem entryCount_append (tensors tensors' : NamedTensors α) :
    entryCount (tensors ++ tensors') = entryCount tensors + entryCount tensors' := by
  simp [entryCount_eq]

theorem entryCount_flatMap {β : Type} (f : β → NamedTensors α) (l : List β) :
    entryCount (l.flatMap f) = (l.map fun b => entryCount (f b)).sum := by
  induction l with
  | nil => rfl
  | cons b l ih => rw [List.flatMap_cons, entryCount_append, ih, List.map_cons, List.sum_cons]

@[simp] theorem entryCount_withPrefix (first : String) (tensors : NamedTensors α) :
    entryCount (withPrefix first tensors) = entryCount tensors := by
  simp [entryCount_eq, withPrefix, Function.comp_def]

@[simp] theorem entryCount_namedOption {s : Dims} (name : String) (x : Option (Tensor α s)) :
    entryCount (namedOption name x) = Dims.volume s * x.isSome.toNat := by
  cases x <;> simp [namedOption, AnyTensor.size]

end Operator

open Operator

theorem Affine.entryCount_named {m n : Nat} (a : Affine α m n) :
    entryCount (Weights.named a) = n * m + n * a.bias.isSome.toNat := by
  simp [Weights.named, AnyTensor.size, Dims.volume]

theorem Kernel.entryCount_named {z : ConvSizes} (k : Kernel α z) :
    entryCount (Weights.named k) =
      z.grid.rows.kernel * z.grid.columns.kernel * z.channels * z.filters + z.filters * k.bias.isSome.toNat := by
  simp [Weights.named, AnyTensor.size, Dims.volume, ConvSizes.kernelDims, Nat.mul_assoc]

theorem ScaleShift.entryCount_named {s : Dims} (p : ScaleShift α s) :
    entryCount (Weights.named p) = Dims.volume s * (p.gamma.isSome.toNat + p.beta.isSome.toNat) := by
  simp [Weights.named, Nat.mul_add]

theorem FeedForwardWeights.entryCount_named {d f : Nat} (w : FeedForwardWeights α d f) :
    entryCount (Weights.named w) = entryCount (Weights.named w.linear1) + entryCount (Weights.named w.linear2) := by
  show entryCount (withPrefix _ _ ++ withPrefix _ _) = _
  simp only [entryCount_append, entryCount_withPrefix]

theorem AttentionWeights.entryCount_named {d h k v : Nat} (w : AttentionWeights α d h k v) :
    entryCount (Weights.named w) = entryCount (Weights.named w.query) + entryCount (Weights.named w.key)
      + entryCount (Weights.named w.value) + entryCount (Weights.named w.output) := by
  show entryCount (withPrefix _ _ ++ withPrefix _ _ ++ withPrefix _ _ ++ withPrefix _ _) = _
  simp only [entryCount_append, entryCount_withPrefix]

theorem BlockWeights.entryCount_named {d h k f : Nat} (w : BlockWeights α d h k f) :
    entryCount (Weights.named w) = entryCount (Weights.named w.attention) + entryCount (Weights.named w.norm1)
      + entryCount (Weights.named w.feedForward) + entryCount (Weights.named w.norm2) := by
  show entryCount (withPrefix _ _ ++ withPrefix _ _ ++ withPrefix _ _ ++ withPrefix _ _) = _
  simp only [entryCount_append, entryCount_withPrefix]

/-! ## Fresh weights -/

section Fresh

variable [Scalar α]

theorem Affine.entryCount_draw (scheme : Initializer) (useBias : Bool) (m n : Nat) (s : Stream) :
    entryCount (Weights.named (Affine.draw scheme useBias m n s : Affine α m n × Stream).1) =
      n * m + n * useBias.toNat := by
  rw [entryCount_named]
  cases useBias <;> rfl

theorem Kernel.entryCount_draw (scheme : Initializer) (useBias : Bool) (z : ConvSizes) (s : Stream) :
    entryCount (Weights.named (Kernel.draw scheme useBias z s : Kernel α z × Stream).1) =
      z.grid.rows.kernel * z.grid.columns.kernel * z.channels * z.filters + z.filters * useBias.toNat := by
  rw [entryCount_named]
  cases useBias <;> rfl

theorem ScaleShift.entryCount_identity (center scale : Bool) (s : Dims) :
    entryCount (Weights.named (identity center scale s : ScaleShift α s)) =
      Dims.volume s * (scale.toNat + center.toNat) := by
  rw [entryCount_named]
  cases scale <;> cases center <;> rfl

theorem AttentionWeights.entryCount_draw (useBias : Bool) (d h k v : Nat) (s : Stream) :
    (entryCount (Weights.named (AttentionWeights.draw useBias d h k v s : AttentionWeights α d h k v × Stream).1) : Int) =
      attentionWeights d h k v useBias := by
  simp only [entryCount_named, draw, run_bind, run_pure, Affine.entryCount_draw]
  rw [attentionWeights]
  push_cast
  ring

theorem FeedForwardWeights.entryCount_draw (d f : Nat) (s : Stream) :
    (entryCount (Weights.named (FeedForwardWeights.draw d f s : FeedForwardWeights α d f × Stream).1) : Int) =
      2 * d * f + f + d := by
  simp only [entryCount_named, draw, run_bind, run_pure, Affine.entryCount_draw, Bool.toNat_true]
  push_cast
  ring

theorem BlockWeights.entryCount_draw (d h k f : Nat) (s : Stream) :
    (entryCount (Weights.named (BlockWeights.draw d h k f s : BlockWeights α d h k f × Stream).1) : Int) =
      attentionWeights d h k k true + 4 * d + (2 * d * f + f + d) := by
  simp only [entryCount_named, draw, run_bind, run_pure, ScaleShift.entryCount_identity]
  push_cast
  rw [AttentionWeights.entryCount_draw, FeedForwardWeights.entryCount_draw]
  simp [Dims.volume]
  ring

/-! ## Fresh operators -/

namespace Operator

variable {config : LayerConfig} {shape out : Shape} {stream : Stream} {o : Operator α}

omit [Scalar α] in
theorem lastLength_cast (h : 0 ≤ shape.getLastD 0) : (shape.lastLength : Int) = shape.getLastD 0 := Int.toNat_of_nonneg h

omit [Scalar α] in
theorem count_of_layout {l : Entries String Dims × Entries String Dims × Entries String Dims} (h : o.layout = l) :
    o.trainableCount = entriesOn l.1 ∧ entryCount o.frozen = entriesOn l.2.1 := by
  subst h
  exact ⟨trainableCount_eq o, entryCount_eq_entriesOn _⟩

/-- A fresh operator has as many trainable and frozen entries as its settings and the shape it takes tell. -/
theorem count_of_build (hvalid : config.Valid) (hwide : shape.Wide) (h : LayerConfig.Makes config shape out)
    (hbuild : (config.build shape stream).1 = .ok o) :
    (o.trainableCount : Int) = config.weights shape ∧ (entryCount o.frozen : Int) = config.frozenWeights := by
  -- Sizes are read as natural numbers, and all of them are positive.
  have htoNat {n : Int} (hn : 1 ≤ n) : (n.toNat : Int) = n := Int.toNat_of_nonneg (by omega)
  cases h with
  | @dense c n =>
      obtain ⟨hwidth, hdrawn⟩ := eq_of_forRows hbuild
      obtain rfl := eq_of_drawnBy hdrawn
      refine ⟨?_, rfl⟩
      show (entryCount (Weights.named (Affine.draw c.initializer c.useBias _ _ stream).1) : Int) = _
      rw [Affine.entryCount_draw]
      push_cast
      rw [lastLength_cast hwidth, htoNat hvalid]
      rfl
  | @conv2d c height width channels sizes hwindows =>
      obtain ⟨hchannels, hdrawn⟩ := eq_of_forRows hbuild
      obtain rfl := eq_of_drawnBy hdrawn
      obtain ⟨hfilters, ⟨hrows, hcolumns⟩, _⟩ := hvalid
      refine ⟨?_, rfl⟩
      show (entryCount (Weights.named (Kernel.draw c.initializer c.useBias _ stream).1) : Int) = _
      rw [Kernel.entryCount_draw]
      simp only [WindowGrid.ofSizes]
      push_cast
      rw [lastLength_cast hchannels, htoNat hfilters, htoNat hrows, htoNat hcolumns]
      rfl
  | @embedding c length hlength =>
      have ho : (ofEmbedding c.vocabulary.toNat c.dimension.toNat c.trainable stream).1 = o := Except.ok.inj hbuild
      obtain ⟨hmoved, hfrozen⟩ := count_of_layout (ho ▸ layout_ofEmbedding _ _ c.trainable stream)
      rw [hmoved, hfrozen, LayerConfig.weights, LayerConfig.frozenWeights]
      cases c.trainable <;> simp [entriesOn, Dims.volume, htoNat hvalid.1, htoNat hvalid.2.1]
  | @multiHeadAttention c length width =>
      have hwidth := width_of_attention length hvalid (hwide length width rfl)
      simp only [LayerConfig.build, AttentionConfig.build, hwidth] at hbuild
      obtain rfl := eq_of_drawnBy hbuild
      obtain ⟨hheads, hkey, hvalue, _⟩ := hvalid
      refine ⟨?_, rfl⟩
      show (entryCount (Weights.named (AttentionWeights.draw c.useBias _ _ _ _ stream).1) : Int) = _
      rw [AttentionWeights.entryCount_draw, htoNat hheads, htoNat hkey,
        htoNat (AttentionConfig.one_le_valueSize hkey hvalue), htoNat (hwide length width rfl)]
      rfl
  | @layerNorm c shape =>
      obtain ⟨rfl, hwidth⟩ : ofLayerNorm shape.lastLength c.epsilon c.center c.scale = o ∧
          ((c.center || c.scale) = true → 0 ≤ shape.getLastD 0) := by
        simp only [LayerConfig.build] at hbuild
        split at hbuild
        · obtain ⟨hwidth, hbuilt⟩ := eq_of_forRows hbuild
          exact ⟨Except.ok.inj hbuilt, fun _ => hwidth⟩
        · next hplain => exact ⟨Except.ok.inj hbuild, fun hweights => absurd hweights hplain⟩
      refine ⟨?_, rfl⟩
      show (entryCount (Weights.named (ScaleShift.identity c.center c.scale [shape.lastLength])) : Int) = _
      rw [ScaleShift.entryCount_identity, LayerConfig.weights]
      push_cast
      cases hweights : c.center || c.scale with
      | true => simp [Dims.volume, lastLength_cast (hwidth hweights)]
      | false => simp_all
  | @positionalEncoding greatest encoding length width hlength =>
      simp only [LayerConfig.build, PositionTable.build, sizeFor_positions encoding hlength] at hbuild
      have ho : (ofPositions (.int greatest) (.int width.toNat) encoding stream).1 = o := Except.ok.inj hbuild
      obtain ⟨hmoved, hfrozen⟩ := count_of_layout (ho ▸ layout_ofPositions _ _ encoding stream)
      have hwidth : (width.toNat : Int) = width := htoNat (hwide length width rfl)
      rw [hmoved, hfrozen, LayerConfig.weights, LayerConfig.frozenWeights]
      cases encoding <;> simp [entriesOn, Dims.volume, PositionTable.room, Number.ceiling?, htoNat hvalid, hwidth]
  | @transformerBlock c length width =>
      have hwidth := width_of_block length hvalid (hwide length width rfl)
      simp only [LayerConfig.build, BlockConfig.build, hwidth] at hbuild
      obtain rfl := eq_of_drawnBy hbuild
      obtain ⟨hheads, hkey, hhidden, _⟩ := hvalid
      have hinner : innerWidth c.hidden.toNat width.toNat = c.hidden.toNat := if_neg (by omega)
      refine ⟨?_, rfl⟩
      show (entryCount (Weights.named (BlockWeights.draw _ _ _ (innerWidth _ _) stream).1) : Int) = _
      rw [BlockWeights.entryCount_draw, hinner, htoNat hheads, htoNat hkey, htoNat hhidden,
        htoNat (hwide length width rfl)]
      rfl
  | maxpool2d hwindows | flatten | globalAvgPool1d =>
      obtain rfl := Except.ok.inj hbuild
      exact ⟨rfl, rfl⟩
  | @dropout rate =>
      have hrate : Dropout.checkRate rate = .ok () := if_pos hvalid
      simp only [LayerConfig.build, ofDropout, hrate] at hbuild
      obtain rfl := Except.ok.inj hbuild
      exact ⟨rfl, rfl⟩

/-- Fresh operators of layers in a row have as many entries as the settings of all layers tell. -/
theorem count_of_buildAll {layers : List ResolvedLayer} {os : List (Operator α)} {index : Nat} {before after : Stream}
    (hchained : ShapePlan.Chained index shape layers) (hwide : shape.Wide)
    (h : OperatorBuilders.stock.build layers before = (.ok os, after)) :
    ((os.map trainableCount).sum : Int) = (layers.map fun layer => layer.config.weights layer.input).sum ∧
      ((os.map fun o => entryCount o.frozen).sum : Int) = (layers.map fun layer => layer.config.frozenWeights).sum := by
  induction hchained generalizing before os with
  | nil =>
      obtain ⟨hos, _⟩ := Prod.mk.inj h
      rw [← Except.ok.inj hos]
      exact ⟨rfl, rfl⟩
  | @cons index layer layers _ hsound hrest ih =>
      obtain ⟨o, tail, stream, hfirst, htail, rfl⟩ := Session.build_stock_cons hsound.type h
      obtain ⟨hmoved, hfrozen⟩ := count_of_build hsound.valid hwide hsound.makes (congrArg Prod.fst hfirst)
      obtain ⟨hmovedRest, hfrozenRest⟩ := ih (LayerConfig.wide_of_makes hsound.valid hwide hsound.makes) htail
      simp only [List.map_cons, List.sum_cons, Nat.cast_add]
      rw [hmoved, hmovedRest, hfrozen, hfrozenRest]
      exact ⟨rfl, rfl⟩

end Operator

end Fresh

/-! ## Models -/

namespace Model

variable {m m' : Model α}

/-- The parameters of a model have the entries that its operators count. -/
theorem trainable_eq_collect (h : m.operators.length = m.plan.layers.length) :
    m.trainable = entryCount (m.collect Operator.parameters) := by
  have hoperators : (m.plan.layers.zip m.operators).map Prod.snd = m.operators := List.map_snd_zip h.le
  rw [trainable_eq, collect, entryCount_flatMap, ← hoperators, List.map_map, hoperators]
  simp only [entryCount_withPrefix]
  rfl

theorem total_eq_add (m : Model α) : m.total = m.trainable + (m.operators.map fun o => entryCount o.frozen).sum := by
  rw [total_eq, trainable_eq, ← List.sum_map_add]
  rfl

variable [Scalar α] {design : Session.Design}

/-- The counts of a compiled model are those of its plan. -/
theorem counts_of_compiles (h : Session.Compiles design m) :
    (m.trainable : Int) = (m.plan.layers.map fun layer => layer.config.weights layer.input).sum ∧
      ((m.operators.map fun o => entryCount o.frozen).sum : Int) =
        (m.plan.layers.map fun layer => layer.config.frozenWeights).sum := by
  obtain ⟨s, id, hstock, hcompile, hmodel⟩ := h
  obtain ⟨hplan, hbuild, _⟩ := Session.built_of_compile hcompile hmodel
  obtain ⟨hopens, hchained⟩ := Session.chained_of_analysis hplan
  rw [hstock] at hbuild
  rw [trainable_eq]
  exact Operator.count_of_buildAll hchained (Shape.wide_of_positive hopens.positive_input) hbuild

omit [Scalar α] in
theorem Made.length_operators (h : m.Made) : m.operators.length = m.plan.layers.length := h.operators.length_eq.symm

/-- Training does not change how many entries there are. -/
theorem Trained.counts (h : Trained m m') (hmade : m.Made) (hmade' : m'.Made) : m'.trainable = m.trainable ∧
    (m'.operators.map fun o => entryCount o.frozen).sum = (m.operators.map fun o => entryCount o.frozen).sum := by
  constructor
  · rw [trainable_eq_collect hmade.length_operators, trainable_eq_collect hmade'.length_operators,
      entryCount_eq_entriesOn, entryCount_eq_entriesOn, h.axes]
  · have hfrozen := congrArg (fun frozen => (frozen.map entryCount).sum) h.frozen
    simpa only [List.map_map, Function.comp_def] using hfrozen

end Model

namespace Trainer

open Model NamedTensors

variable [Scalar α] {t : Trainer α} {id : Identity} {m : Model α} {design : Session.Design}

/-- The weights of a compiled model are those of its plan, whatever has been done with it.  No two parameters have the
same name, and their entries are as many as the model counts: the sum of what the settings of every layer, as they are
read from its parameters, and the width of its input come to.  All weights are as many more as there are entries in the
tables of frozen embeddings. -/
theorem counts_as_planned (hcompiled : Session.Compiles design m) (hm : t.session.model? id = some m)
    (exercises : List (Exercise α)) :
    ∃ m' parameters trainable total, (t.after exercises).session.model? id = some m' ∧
      m'.parameters = .ok parameters ∧ (names parameters).Nodup ∧
      m'.counts = .ok (trainable, total) ∧
      trainable = Operator.entryCount parameters ∧
      (∀ layer ∈ m.plan.layers, LayerConfig.ofParams layer.type layer.params = .ok layer.config) ∧
      (trainable : Int) = (m.plan.layers.map fun layer => layer.config.weights layer.input).sum ∧
      (total : Int) = trainable + (m.plan.layers.map fun layer => layer.config.frozenWeights).sum := by
  obtain ⟨hplan, hmade⟩ := made_of_compiles hcompiled
  obtain ⟨m', hm', htrains⟩ := running_carries.exercises exercises t id m hm
  obtain ⟨hmade', htrained⟩ := htrains hmade
  have hlive : m'.live = .ok m' := if_neg (by simp [hmade'.alive])
  obtain ⟨htrainable, hfrozen⟩ := htrained.counts hmade hmade'
  obtain ⟨hmoved, hleft⟩ := counts_of_compiles hcompiled
  refine ⟨m', m'.collect Operator.parameters, m'.trainable, m'.total, hm', ?parameters, ?names, ?counts, ?entries, ?read,
    ?moved, ?all⟩
  case parameters => rw [Model.parameters, hlive]; rfl
  case names => exact (nodup_names hmade'.chained _).1
  case counts => rw [counts, hlive]; rfl
  case entries => exact trainable_eq_collect hmade'.length_operators
  case read =>
    intro layer hlayer
    exact (hmade.chained.sound_of_mem (Shape.wide_of_positive hmade.opens.positive_input) hlayer).1.config
  case moved => rw [htrainable, hmoved]
  case all =>
    rw [total_eq_add, hfrozen, Nat.cast_add, hleft]

/-- Three tokens with a frozen table and learned positions, attended twice and classified. -/
def attending : Session.Design := .ok [
  { type := "input", params := [(.text "shape", .list [.int 3])] },
  { type := "embedding", params := [
    (.text "vocabSize", .int 5), (.text "embeddingDim", .int 2), (.text "maxLength", .int 3),
    (.text "trainable", .bool false)] },
  { type := "positionalEncoding", params := [(.text "maxLength", .int 3), (.text "encodingType", .text "learned")] },
  { type := "multiHeadAttention", params := [
    (.text "numHeads", .int 2), (.text "keyDim", .int 3), (.text "valueDim", .int 1), (.text "dropout", .int 0),
    (.text "useBias", .bool false)] },
  { type := "transformerBlock", params := [
    (.text "numHeads", .int 1), (.text "keyDim", .int 1), (.text "ffDim", .int 3)] },
  { type := "globalAvgPool1d", params := [] },
  { type := "dense", params := [(.text "units", .int 2)] }]

/-- Of the weights of `attending` 6, 32, 38 and 6 are moved by training, and the 10 of the table are not. -/
theorem counts_as_planned_attending :
    ∃ (t : Trainer Float) (m m' : Model Float) (parameters : NamedTensors Float),
      let tokens : AnyTensor Float := ⟨[2, 3], Tensor.fill 1 _⟩
      Session.Compiles attending m ∧ t.session.model? 0 = some m ∧
        m.plan.layers.map (fun layer => layer.config.weights layer.input) = [0, 6, 32, 38, 0, 6] ∧
        (t.after [.forward 0 true tokens]).session.model? 0 = some m' ∧ m'.parameters = .ok parameters ∧
        (names parameters).Nodup ∧ m'.counts = .ok (82, 92) ∧ Operator.entryCount parameters = 82 := by
  let tokens : AnyTensor Float := ⟨[2, 3], Tensor.fill 1 _⟩
  obtain ⟨t, m, hcompiled, hm, hweights, hfrozen⟩ : ∃ (t : Trainer Float) (m : Model Float),
      Session.Compiles attending m ∧ t.session.model? 0 = some m ∧
      m.plan.layers.map (fun layer => layer.config.weights layer.input) = [0, 6, 32, 38, 0, 6] ∧
      m.plan.layers.map (fun layer => layer.config.frozenWeights) = [10, 0, 0, 0, 0, 0] :=
    ⟨{ session := (Session.compile attending (Session.start 7 true)).2,
       compiler := { state := .compiled, model := some 0 } },
      _, ⟨Session.start 7 true, 0, rfl, rfl, rfl⟩, rfl, rfl, rfl⟩
  obtain ⟨m', parameters, trainable, total, hm', hparameters, hnodup, hcounts, hentries, _, hmoved, hall⟩ :=
    counts_as_planned hcompiled hm [.forward 0 true tokens]
  obtain rfl : trainable = 82 := by
    rw [hweights] at hmoved
    exact Int.ofNat_inj.mp hmoved
  obtain rfl : total = 92 := by
    rw [hfrozen] at hall
    exact Int.ofNat_inj.mp hall
  exact ⟨t, m, m', parameters, hcompiled, hm, hweights, hm', hparameters, hnodup, hcounts, hentries.symm⟩

end Trainer

end LayerStack
