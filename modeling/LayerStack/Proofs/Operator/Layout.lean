import LayerStack.Proofs.Operator.Owned
import LayerStack.Session

/-!
# LayerStack.Proofs.Operator.Layout

What random numbers have no part in.

The layout of an operator is the names and the axes of its tensors, sort by sort.  Random numbers make the entries of
fresh operators, but neither their layout nor whether they can be built at all (`alike_build`).  What operators count
is known from their layouts.
-/

namespace LayerStack

variable {α : Type}

open NamedTensors

namespace Operator

/-! ## Layouts -/

/-- The names and the axes of the tensors of an operator: of its parameters, frozen weights and constants. -/
def layout (o : Operator α) : Entries String Dims × Entries String Dims × Entries String Dims :=
  (axes o.parameters, axes o.frozen, axes o.constants)

/-- The number of entries on some axes. -/
def entriesOn (named : Entries String Dims) : Nat := (named.map fun p => Dims.volume p.2).sum

theorem entryCount_eq_entriesOn (tensors : NamedTensors α) : entryCount tensors = entriesOn (axes tensors) := by
  rw [entryCount_eq, entriesOn, List.map_map, axes, List.map_map]
  rfl

/-- What an operator counts is known from its layout. -/
theorem trainableCount_eq (o : Operator α) : o.trainableCount = entriesOn o.layout.1 := entryCount_eq_entriesOn _

theorem totalCount_eq (o : Operator α) : o.totalCount = entriesOn o.layout.1 + entriesOn o.layout.2.1 := by
  rw [totalCount, trainableCount_eq, entryCount_eq_entriesOn]
  rfl

/-! ## Builders -/

/-- What a scheme draws is drawn from every stream or from none. -/
theorem layout_drawnBy {scheme : Initializer} {fans : List (Nat × Nat)} {draw : Draw (Operator α)} {s s' : Stream}
    (h : (draw s).1.layout = (draw s').1.layout) :
    (drawnBy scheme fans draw s).1.map layout = (drawnBy scheme fans draw s').1.map layout := by
  unfold drawnBy
  split
  · exact congrArg Except.ok h
  · rfl

end Operator

/-! ## Fresh weights -/

variable [Scalar α]

theorem Affine.axes_draw (scheme : Initializer) (useBias : Bool) (m n : Nat) (s : Stream) :
    axes (Weights.named (Affine.draw scheme useBias m n s : Affine α m n × Stream).1) =
      ("weight", [n, m]) :: if useBias then [("bias", [n])] else [] := by
  cases useBias <;> rfl

theorem Kernel.axes_draw (scheme : Initializer) (useBias : Bool) (z : ConvSizes) (s s' : Stream) :
    axes (Weights.named (Kernel.draw scheme useBias z s : Kernel α z × Stream).1) =
      axes (Weights.named (Kernel.draw scheme useBias z s' : Kernel α z × Stream).1) := by
  cases useBias <;> rfl

theorem AttentionWeights.axes_draw (useBias : Bool) (d h k v : Nat) (s s' : Stream) :
    axes (Weights.named (AttentionWeights.draw useBias d h k v s : AttentionWeights α d h k v × Stream).1) =
      axes (Weights.named (AttentionWeights.draw useBias d h k v s' : AttentionWeights α d h k v × Stream).1) := by
  simp only [axes_named, draw, run_bind, run_pure, Affine.axes_draw]

theorem FeedForwardWeights.axes_draw (d f : Nat) (s s' : Stream) :
    axes (Weights.named (FeedForwardWeights.draw d f s : FeedForwardWeights α d f × Stream).1) =
      axes (Weights.named (FeedForwardWeights.draw d f s' : FeedForwardWeights α d f × Stream).1) := by
  simp only [axes_named, draw, run_bind, run_pure, Affine.axes_draw]

theorem BlockWeights.axes_draw (d h k f : Nat) (s s' : Stream) :
    axes (Weights.named (BlockWeights.draw d h k f s : BlockWeights α d h k f × Stream).1) =
      axes (Weights.named (BlockWeights.draw d h k f s' : BlockWeights α d h k f × Stream).1) := by
  simp only [axes_named, draw, run_bind, run_pure]
  rw [AttentionWeights.axes_draw true d h k k s s',
    FeedForwardWeights.axes_draw d f _ (AttentionWeights.draw true d h k k s' : AttentionWeights α d h k k × Stream).2]

/-! ## Fresh operators -/

namespace Operator

/-- From every stream the layouts are one, or there is one reason to fail. -/
def Alike (build : Draw (Except RunError (Operator α))) : Prop := ∀ s s', (build s).1.map layout = (build s').1.map layout

omit [Scalar α] in
/-- What is drawn for the weights decides the layout of an operator that has no other tensors. -/
theorem alike_drawnBy {W : Type} [Weights W α] {scheme : Initializer} {fans : List (Nat × Nat)} {draw : Draw (Operator α)}
    (weights : Draw W) (hweights : ∀ s s', axes (Weights.named (weights s).1) = axes (Weights.named (weights s').1))
    (hparameters : ∀ s, (draw s).1.parameters = Weights.named (weights s).1) (hfrozen : ∀ s, (draw s).1.frozen = [])
    (hconstants : ∀ s, (draw s).1.constants = []) : Alike (drawnBy scheme fans draw) := by
  intro s s'
  refine layout_drawnBy ?_
  rw [layout, layout, hparameters, hparameters, hweights s s', hfrozen, hfrozen, hconstants, hconstants]

omit [Scalar α] in
/-- So does what is built for the width of a shape. -/
theorem alike_forRows {shape : Shape} {build : Nat → Draw (Except RunError (Operator α))}
    (h : Alike (build shape.lastLength)) : Alike (forRows shape build) := by
  unfold forRows
  split
  · exact fun _ _ => rfl
  · exact h

theorem alike_ofDense (inputs units : Nat) (activation : Activation) (useBias : Bool) (scheme : Initializer) :
    Alike (ofDense inputs units activation useBias scheme : Draw (Except RunError (Operator α))) :=
  alike_drawnBy (Affine.draw scheme useBias inputs units)
    (fun s s' => (Affine.axes_draw _ _ _ _ s).trans (Affine.axes_draw _ _ _ _ s').symm)
    (fun _ => rfl) (fun _ => rfl) fun _ => rfl

theorem alike_ofConv2D (z : ConvSizes) (activation : Activation) (useBias : Bool) (scheme : Initializer) :
    Alike (ofConv2D z activation useBias scheme : Draw (Except RunError (Operator α))) :=
  alike_drawnBy (Kernel.draw scheme useBias z) (fun s s' => Kernel.axes_draw _ _ _ s s')
    (fun _ => rfl) (fun _ => rfl) fun _ => rfl

theorem alike_ofAttention (c : AttentionConfig) (width : Nat) :
    Alike (ofAttention c width : Draw (Except RunError (Operator α))) :=
  alike_drawnBy (AttentionWeights.draw c.useBias width c.heads.toNat c.keyWidth.toNat c.valueSize.toNat)
    (fun s s' => AttentionWeights.axes_draw _ _ _ _ _ s s') (fun _ => rfl) (fun _ => rfl) fun _ => rfl

theorem alike_ofBlock (c : BlockConfig) (width : Nat) : Alike (ofBlock c width : Draw (Except RunError (Operator α))) :=
  alike_drawnBy
    (BlockWeights.draw width c.heads.toNat c.keyWidth.toNat (innerWidth c.hidden.toNat width))
    (fun s s' => BlockWeights.axes_draw _ _ _ _ s s') (fun _ => rfl) (fun _ => rfl) fun _ => rfl

/-- The table of an embedding is a parameter or frozen. -/
theorem layout_ofEmbedding (vocabulary width : Nat) (trainable : Bool) (s : Stream) :
    (ofEmbedding vocabulary width trainable s : Operator α × Stream).1.layout =
      if trainable then ([("embedding_table", [vocabulary, width])], [], [])
      else ([], [("embedding_table", [vocabulary, width])], []) := by
  cases trainable <;> rfl

/-- A position table is a parameter or a constant. -/
theorem layout_ofPositions (greatest width : Number) (encoding : EncodingType) (s : Stream) :
    (ofPositions greatest width encoding s : Operator α × Stream).1.layout =
      let table := [("encoding_table", [PositionTable.room greatest, PositionTable.room width])]
      match encoding with
      | .learned => (table, [], [])
      | .sinusoidal => ([], [], table) := by
  cases encoding <;> rfl

/-- From every stream a builder makes operators of one layout, or fails for one reason. -/
theorem alike_build (config : LayerConfig) (shape : Shape) :
    Alike (config.build shape : Draw (Except RunError (Operator α))) := by
  intro s s'
  cases config with
  | dense c => exact alike_forRows (alike_ofDense _ _ _ _ _) s s'
  | conv2d c => exact alike_forRows (alike_ofConv2D _ _ _ _) s s'
  | layerNorm c =>
      simp only [LayerConfig.build]
      split
      · exact alike_forRows (fun _ _ => rfl) s s'
      · rfl
  | maxpool2d | dropout | flatten | globalAvgPool1d => rfl
  | embedding c => exact congrArg Except.ok ((layout_ofEmbedding _ _ _ s).trans (layout_ofEmbedding _ _ _ s').symm)
  | multiHeadAttention c =>
      simp only [LayerConfig.build, AttentionConfig.build]
      cases c.width (.ofShape shape) with
      | error e => rfl
      | ok width => exact alike_ofAttention c width s s'
  | positionalEncoding greatest encoding =>
      simp only [LayerConfig.build, PositionTable.build]
      cases PositionTable.sizeFor (.int greatest) (.text encoding.name) (.ofShape shape) with
      | error e => rfl
      | ok size => exact congrArg Except.ok ((layout_ofPositions _ _ _ s).trans (layout_ofPositions _ _ _ s').symm)
  | transformerBlock c =>
      simp only [LayerConfig.build, BlockConfig.build]
      cases c.width (.ofShape shape) with
      | error e => rfl
      | ok width => exact alike_ofBlock c width s s'

end Operator

/-! ## Builders of all layers -/

namespace OperatorBuilders

/-- Random numbers have no part in the layouts that the builders make, nor in whether they fail. -/
def Steady (b : OperatorBuilders α) : Prop := ∀ p ∈ b, ∀ config shape, Operator.Alike (p.2 config shape)

theorem steady_stock : (stock : OperatorBuilders α).Steady := by
  intro p hp config shape
  obtain ⟨t, _, rfl⟩ := List.mem_map.mp hp
  exact Operator.alike_build config shape

omit [Scalar α] in
/-- Steady builders make operators of the same layouts from every stream, or fail for the same reason. -/
theorem Steady.layouts {b : OperatorBuilders α} (h : b.Steady) (layers : List ResolvedLayer) (s s' : Stream) :
    (b.build layers s).1.map (List.map Operator.layout) = (b.build layers s').1.map (List.map Operator.layout) := by
  induction layers generalizing s s' with
  | nil => rfl
  | cons layer layers ih =>
      rw [build]
      cases hlookup : b.lookup layer.type.tag with
      | none => rfl
      | some builder =>
          have halike := h _ (Entries.mem_of_lookup hlookup) layer.config layer.input s s'
          simp only [run_bind]
          obtain ⟨e, hfirst, hfirst'⟩ | ⟨o, o', hfirst, hfirst', hlayout⟩ := map_eq_map.mp halike
          · rw [hfirst, hfirst']
            cases e <;> rfl
          · rw [hfirst, hfirst']
            simp only [run_bind]
            obtain ⟨e, hrest, hrest'⟩ | ⟨os, os', hrest, hrest', hlayouts⟩ := map_eq_map.mp
              (ih (builder layer.config layer.input s).2 (builder layer.config layer.input s').2)
            · rw [hrest, hrest']
              rfl
            · rw [hrest, hrest']
              show Except.ok ((o :: os).map Operator.layout) = Except.ok ((o' :: os').map Operator.layout)
              rw [List.map_cons, List.map_cons, hlayout, hlayouts]

end OperatorBuilders

end LayerStack
