import LayerStack.Proofs.Operator.Inference
import LayerStack.Proofs.Operator.Made

/-!
# LayerStack.Proofs.Operator.Undropped

Settings that differ in a dropout rate.

Settings are compared by what is left of them without their rate (`undropped`).  The rate has no part in the shape that a
layer makes, nor in what is drawn for its weights: from one stream, settings without their rate are built into an
operator that is bare the same, and leave the same stream (`buildBare_undropped`).
-/

namespace LayerStack

/-! ## Settings -/

namespace LayerConfig

/-- The dropout rate of a layer that has one. -/
def rate? : LayerConfig → Option Number
  | .dropout rate => some rate
  | .multiHeadAttention c => some c.dropout
  | .transformerBlock c => some c.dropout
  | _ => none

/-- Settings at a rate of zero. -/
def undropped : LayerConfig → LayerConfig
  | .dropout _ => .dropout (.int 0)
  | .multiHeadAttention c => .multiHeadAttention { c with dropout := .int 0 }
  | .transformerBlock c => .transformerBlock { c with dropout := .int 0 }
  | config => config

variable {config : LayerConfig} {shape out : Shape}

theorem outputShape_undropped (config : LayerConfig) (shape : Shape) :
    config.undropped.outputShape shape = config.outputShape shape := by
  cases config <;> rfl

theorem valid_undropped (h : config.Valid) : config.undropped.Valid := by
  have hzero : isProbability (.int 0) = true := by decide
  cases config with
  | dropout rate => exact hzero
  | multiHeadAttention c =>
      obtain ⟨hheads, hkey, hvalue, _⟩ := h
      exact ⟨hheads, hkey, hvalue, hzero⟩
  | transformerBlock c =>
      obtain ⟨hheads, hkey, hhidden, _⟩ := h
      exact ⟨hheads, hkey, hhidden, hzero⟩
  | dense | conv2d | maxpool2d | flatten | embedding | layerNorm | positionalEncoding | globalAvgPool1d => exact h

end LayerConfig

/-! ## Builders -/

namespace Operator

variable {α : Type} [Scalar α] {config : LayerConfig} {shape out : Shape}

/-- A builder's operator without its rate. -/
def buildBare (config : LayerConfig) (shape : Shape) : Draw (Except RunError (Operator α)) :=
  (Except.map bare) <$> config.build shape

omit [Scalar α] in
/-- What is done to what a scheme draws can be done to the draw. -/
theorem map_drawnBy {β γ : Type} (f : β → γ) (scheme : Initializer) (fans : List (Nat × Nat)) (draw : Draw β) :
    Except.map f <$> drawnBy scheme fans draw = drawnBy scheme fans (f <$> draw) := by
  unfold drawnBy
  split <;> rfl

/-- At a rate of zero a builder draws what it draws at any other. -/
theorem buildBare_undropped (hvalid : config.Valid) (hwide : shape.Wide) (h : LayerConfig.Makes config shape out) :
    (buildBare config.undropped shape : Draw (Except RunError (Operator α))) = buildBare config shape := by
  have hvalid' := LayerConfig.valid_undropped hvalid
  cases h with
  | dense | conv2d hwindows | maxpool2d hwindows | flatten | embedding hlength | layerNorm | positionalEncoding hlength
  | globalAvgPool1d => rfl
  | @dropout rate =>
      have hrate : Dropout.checkRate rate = .ok () := if_pos hvalid
      have hzero : Dropout.checkRate (.int 0) = .ok () := if_pos hvalid'
      simp only [buildBare, LayerConfig.undropped, LayerConfig.build, ofDropout, hrate, hzero]
      rfl
  | @multiHeadAttention c length width =>
      have hwidth := width_of_attention length hvalid (hwide length width rfl)
      have hwidth' := width_of_attention length hvalid' (hwide length width rfl)
      simp only [buildBare, LayerConfig.undropped, LayerConfig.build, AttentionConfig.build, hwidth, hwidth', ofAttention,
        map_drawnBy]
      rfl
  | @transformerBlock c length width =>
      have hwidth := width_of_block length hvalid (hwide length width rfl)
      have hwidth' := width_of_block length hvalid' (hwide length width rfl)
      simp only [buildBare, LayerConfig.undropped, LayerConfig.build, BlockConfig.build, hwidth, hwidth', ofBlock,
        map_drawnBy]
      rfl

omit [Scalar α] in
theorem eq_of_drawnBy {β : Type} {scheme : Initializer} {fans : List (Nat × Nat)} {draw : Draw β} {stream : Stream} {b : β}
    (h : (drawnBy scheme fans draw stream).1 = .ok b) : (draw stream).1 = b := by
  rcases drawnBy_eq scheme fans draw stream with hdrawn | hlarge
  · exact Except.ok.inj (hdrawn.symm.trans h)
  · exact absurd (hlarge.symm.trans h) (by simp)

omit [Scalar α] in
theorem eq_of_forRows {build : Nat → Draw (Except RunError (Operator α))} {stream : Stream} {o : Operator α}
    (h : (forRows shape build stream).1 = .ok o) :
    0 ≤ shape.getLastD 0 ∧ (build shape.lastLength stream).1 = .ok o := by
  unfold forRows at h
  split at h
  · contradiction
  · next hwidth => exact ⟨not_lt.mp hwidth, h⟩

/-- A built operator has the rate of its settings, in the numbers it computes with. -/
theorem rate?_of_build (hvalid : config.Valid) (hwide : shape.Wide) (h : LayerConfig.Makes config shape out)
    {o : Operator α} {stream : Stream} (hbuild : (config.build shape stream).1 = .ok o) :
    o.rate? = config.rate?.map Scalar.ofNumber := by
  cases h with
  | dense | conv2d hwindows =>
      obtain rfl := eq_of_drawnBy (eq_of_forRows hbuild).2
      rfl
  | layerNorm =>
      simp only [LayerConfig.build] at hbuild
      split at hbuild
      · obtain rfl := Except.ok.inj (eq_of_forRows hbuild).2
        rfl
      · obtain rfl := Except.ok.inj hbuild
        rfl
  | flatten | globalAvgPool1d | maxpool2d hwindows | embedding hlength =>
      obtain rfl := Except.ok.inj hbuild
      rfl
  | @positionalEncoding greatest encoding length width hlength =>
      simp only [LayerConfig.build, PositionTable.build, sizeFor_positions encoding hlength] at hbuild
      obtain rfl := Except.ok.inj hbuild
      rfl
  | @dropout rate =>
      have hrate : Dropout.checkRate rate = .ok () := if_pos hvalid
      simp only [LayerConfig.build, ofDropout, hrate] at hbuild
      obtain rfl := Except.ok.inj hbuild
      rfl
  | @multiHeadAttention c length width =>
      have hwidth := width_of_attention length hvalid (hwide length width rfl)
      simp only [LayerConfig.build, AttentionConfig.build, hwidth] at hbuild
      obtain rfl := eq_of_drawnBy hbuild
      rfl
  | @transformerBlock c length width =>
      have hwidth := width_of_block length hvalid (hwide length width rfl)
      simp only [LayerConfig.build, BlockConfig.build, hwidth] at hbuild
      obtain rfl := eq_of_drawnBy hbuild
      rfl

end Operator

end LayerStack
