import LayerStack.Proofs.Parameter.Complete
import LayerStack.Proofs.Shape.Step
import Mathlib.Algebra.BigOperators.Group.List.Basic
import Mathlib.Tactic.Linarith

/-!
# LayerStack.Proofs.Shape.Chain

What is known of the layers of a plan.

Every layer has valid settings and makes its output of its input, and every input is the output of the layer before
(`Chained`).  Two properties of shapes are carried along: a shape with two axes has rows of at least one number
(`Shape.Wide`), whatever the plan, and no axis is shorter than one (`Shape.Positive`), as long as no flattened shape
has so many entries that their number wraps.
-/

namespace LayerStack

/-! ## Shapes -/

namespace Shape

/-- Every axis is of a length of at least one. -/
def Positive (shape : Shape) : Prop := ∀ n ∈ shape, 1 ≤ n

/-- If there are two axes, the second one is of a length of at least one. -/
def Wide (shape : Shape) : Prop := ∀ a b, shape = [a, b] → 1 ≤ b

/-- The number of entries of a tensor of the shape. -/
def entries (shape : Shape) : Int := shape.foldl (· * ·) 1

theorem entries_eq_prod (shape : Shape) : shape.entries = shape.prod := by
  rw [entries, List.prod_eq_foldl]

theorem wide_of_positive {shape : Shape} (h : shape.Positive) : shape.Wide := by
  rintro a b rfl
  exact h b (by simp)

theorem positive_cons {n : Int} {shape : Shape} : Positive (n :: shape) ↔ 1 ≤ n ∧ shape.Positive :=
  List.forall_mem_cons

theorem one_le_entries {shape : Shape} (h : shape.Positive) : 1 ≤ shape.entries := by
  rw [entries_eq_prod]
  induction shape with
  | nil => simp
  | cons n shape ih =>
      obtain ⟨hn, hshape⟩ := positive_cons.mp h
      have hrest := ih hshape
      rw [List.prod_cons]
      nlinarith

/-- An axis is no longer than the tensor has entries. -/
theorem le_entries {shape : Shape} (h : shape.Positive) {n : Int} (hn : n ∈ shape) : n ≤ shape.entries := by
  induction shape with
  | nil => simp at hn
  | cons m shape ih =>
      obtain ⟨hm, hshape⟩ := positive_cons.mp h
      have hrest := one_le_entries hshape
      rw [entries_eq_prod] at hrest ⊢
      rw [List.prod_cons]
      rcases List.mem_cons.mp hn with rfl | hn
      · nlinarith
      · have hle := ih hshape hn
        rw [entries_eq_prod] at hle
        nlinarith

/-- Of few enough entries the number does not wrap. -/
theorem wordProduct_eq {shape : Shape} (h : shape.Positive) (hfew : shape.entries < Word.half) :
    shape.wordProduct = shape.entries := by
  have hall : shape.all (· < Word.half) = true := by
    simp only [List.all_eq_true, decide_eq_true_eq]
    exact fun n hn => lt_of_le_of_lt (le_entries h hn) hfew
  have hpos := one_le_entries h
  have hwrap : Word.wrapSigned shape.entries = shape.entries := by
    simp only [Word.half] at hfew
    simp only [Word.wrapSigned, Word.count]
    apply Int.bmod_eq_of_le <;> omega
  simp only [wordProduct, hall, if_true]
  exact hwrap

end Shape

/-! ## One layer -/

namespace LayerConfig

/-- Windows that are found are at least one along both axes. -/
theorem one_le_of_windows {what : String} {kernel strides input sizes : Int × Int} {padding : Padding}
    (h : Shape.windows what kernel strides input padding = .ok sizes) : 1 ≤ sizes.1 ∧ 1 ≤ sizes.2 := by
  simp only [Shape.windows] at h
  split at h
  · contradiction
  · obtain rfl := Except.ok.inj h
    simp only
    omega

/-- The axes of what a layer makes of a shape: those it makes itself are of its own sizes, or counted by windows, or a
flattened shape. -/
inductive Makes : LayerConfig → Shape → Shape → Prop
  | dense {c : DenseConfig} {n : Int} : Makes (.dense c) [n] [c.units]
  | conv2d {c : ConvConfig} {h w channels : Int} {sizes : Int × Int}
    (hwindows : Shape.windows "Kernel" c.kernel c.strides (h, w) c.padding = .ok sizes) :
    Makes (.conv2d c) [h, w, channels] [sizes.1, sizes.2, c.filters]
  | maxpool2d {c : PoolConfig} {h w channels : Int} {sizes : Int × Int}
    (hwindows : Shape.windows "Pool window" c.pool c.strides (h, w) c.padding = .ok sizes) :
    Makes (.maxpool2d c) [h, w, channels] [sizes.1, sizes.2, channels]
  | dropout {rate : Number} {shape : Shape} : Makes (.dropout rate) shape shape
  | flatten {shape : Shape} : Makes .flatten shape [shape.wordProduct]
  | embedding {c : EmbeddingConfig} {length : Int} (hlength : length ≤ c.maxLength) :
    Makes (.embedding c) [length] [length, c.dimension]
  | multiHeadAttention {c : AttentionConfig} {length width : Int} :
    Makes (.multiHeadAttention c) [length, width] [length, width]
  | layerNorm {c : NormConfig} {shape : Shape} : Makes (.layerNorm c) shape shape
  | positionalEncoding {greatest : Int} {encoding : EncodingType} {length width : Int} (hlength : length ≤ greatest) :
    Makes (.positionalEncoding greatest encoding) [length, width] [length, width]
  | transformerBlock {c : BlockConfig} {length width : Int} :
    Makes (.transformerBlock c) [length, width] [length, width]
  | globalAvgPool1d {length width : Int} : Makes .globalAvgPool1d [length, width] [width]

variable {config : LayerConfig} {shape out : Shape}

theorem le_of_checkLength {length greatest : Int} (h : checkLength length greatest = .ok ()) : length ≤ greatest := by
  unfold checkLength at h
  split at h
  · contradiction
  · omega

/-- What a layer makes of a shape, case by case. -/
theorem makes_of_outputShape (h : config.outputShape shape = .ok out) : Makes config shape out := by
  cases config with
  | dense c =>
      simp only [outputShape] at h
      split at h
      · obtain rfl := Except.ok.inj h
        exact .dense
      · contradiction
  | conv2d c =>
      simp only [outputShape] at h
      split at h
      · simp only [bind_eq_ok, pure_eq_ok] at h
        obtain ⟨sizes, hwindows, rfl⟩ := h
        exact .conv2d hwindows
      · contradiction
  | maxpool2d c =>
      simp only [outputShape] at h
      split at h
      · simp only [bind_eq_ok, pure_eq_ok] at h
        obtain ⟨sizes, hwindows, rfl⟩ := h
        exact .maxpool2d hwindows
      · contradiction
  | dropout rate =>
      obtain rfl := Except.ok.inj h
      exact .dropout
  | flatten =>
      obtain rfl := Except.ok.inj h
      exact .flatten
  | embedding c =>
      simp only [outputShape] at h
      split at h
      · simp only [bind_eq_ok, pure_eq_ok] at h
        obtain ⟨_, hlength, rfl⟩ := h
        exact .embedding (le_of_checkLength hlength)
      · contradiction
  | multiHeadAttention c =>
      simp only [outputShape] at h
      split at h
      · obtain rfl := Except.ok.inj h
        exact .multiHeadAttention
      · contradiction
  | layerNorm c =>
      obtain rfl := Except.ok.inj h
      exact .layerNorm
  | positionalEncoding greatest encoding =>
      simp only [outputShape] at h
      split at h
      · simp only [bind_eq_ok, pure_eq_ok] at h
        obtain ⟨_, hlength, rfl⟩ := h
        exact .positionalEncoding (le_of_checkLength hlength)
      · contradiction
  | transformerBlock c =>
      simp only [outputShape] at h
      split at h
      · obtain rfl := Except.ok.inj h
        exact .transformerBlock
      · contradiction
  | globalAvgPool1d =>
      simp only [outputShape] at h
      split at h
      · obtain rfl := Except.ok.inj h
        exact .globalAvgPool1d
      · contradiction

/-- Rows stay of at least one number: only an embedding makes two axes of others, and those of its own width. -/
theorem wide_of_makes (hvalid : config.Valid) (hshape : shape.Wide) (h : Makes config shape out) : out.Wide := by
  cases h with
  | dense | flatten | globalAvgPool1d => simp [Shape.Wide]
  | conv2d hwindows | maxpool2d hwindows => simp [Shape.Wide]
  | dropout | layerNorm | positionalEncoding hlength | multiHeadAttention | transformerBlock => exact hshape
  | embedding hlength =>
      intro a b hab
      obtain ⟨_, rfl⟩ : _ ∧ _ = b := by simpa using hab
      exact hvalid.2.1

/-- Axes stay of at least one cell, unless a flattened shape has another number of entries than is counted. -/
theorem positive_of_counted (hvalid : config.Valid) (hshape : shape.Positive)
    (hcounted : config = .flatten → shape.wordProduct = shape.entries) (h : Makes config shape out) : out.Positive := by
  cases h with
  | dense => simpa [Shape.Positive, Valid] using hvalid
  | conv2d hwindows =>
      obtain ⟨hheight, hwidth⟩ := one_le_of_windows hwindows
      simp only [Shape.positive_cons]
      exact ⟨hheight, hwidth, hvalid.1, by simp [Shape.Positive]⟩
  | maxpool2d hwindows =>
      obtain ⟨hheight, hwidth⟩ := one_le_of_windows hwindows
      simp only [Shape.positive_cons] at hshape ⊢
      exact ⟨hheight, hwidth, hshape.2.2⟩
  | flatten =>
      rw [hcounted rfl]
      have hpos := Shape.one_le_entries hshape
      simpa [Shape.Positive] using hpos
  | dropout | layerNorm | positionalEncoding hlength | multiHeadAttention | transformerBlock => exact hshape
  | embedding hlength =>
      simp only [Shape.positive_cons] at hshape ⊢
      exact ⟨hshape.1, hvalid.2.1, by simp [Shape.Positive]⟩
  | globalAvgPool1d => exact (Shape.positive_cons.mp hshape).2

/-- Of few enough entries it is counted as it is. -/
theorem positive_of_makes (hvalid : config.Valid) (hshape : shape.Positive) (hfew : shape.entries < Word.half)
    (h : Makes config shape out) : out.Positive :=
  positive_of_counted hvalid hshape (fun _ => Shape.wordProduct_eq hshape hfew) h

/-- No layer takes all axes away. -/
theorem ne_nil_of_makes (hshape : shape ≠ []) (h : Makes config shape out) : out ≠ [] := by
  cases h with
  | dropout | layerNorm => exact hshape
  | dense | conv2d | maxpool2d | flatten | embedding | multiHeadAttention | positionalEncoding | transformerBlock
  | globalAvgPool1d => exact List.cons_ne_nil _ _

end LayerConfig

/-! ## All layers -/

namespace ShapePlan

/-- A resolved layer has valid settings, read from its parameters, and makes its output of its input. -/
structure Sound (layer : ResolvedLayer) : Prop where
  type : layer.type ≠ .input
  params : layer.type.Complete layer.params
  config : LayerConfig.ofParams layer.type layer.params = .ok layer.config
  valid : layer.config.Valid
  makes : LayerConfig.Makes layer.config layer.input layer.output

/-- Layers in a row: numbered from a place on, the first taking a shape, each of the others what the one before it
makes. -/
inductive Chained : Nat → Shape → List ResolvedLayer → Prop
  | nil {index : Nat} {shape : Shape} : Chained index shape []
  | cons {index : Nat} {layer : ResolvedLayer} {layers : List ResolvedLayer} (hindex : layer.index = index)
    (hsound : Sound layer) (hrest : Chained (index + 1) layer.output layers) :
    Chained index layer.input (layer :: layers)

variable {index : Nat} {shape : Shape} {layers : List ResolvedLayer} {rest : List (LayerRecord × LayerType)}

theorem sound_of_resolves {record : LayerRecord} {t : LayerType} {layer : ResolvedLayer} (ht : t ≠ .input)
    (h : Resolves index shape record t layer) : Sound layer := by
  have hcomplete : t.Complete layer.params := LayerType.complete_of_resolveParams h.params
  obtain ⟨config, hconfig, hvalid⟩ := LayerConfig.ofParams_of_complete ht hcomplete
  obtain rfl := Except.ok.inj (h.config.symm.trans hconfig)
  exact {
    type := h.type_eq ▸ ht
    params := h.type_eq ▸ hcomplete
    config := h.type_eq ▸ h.config
    valid := hvalid
    makes := h.input_eq ▸ LayerConfig.makes_of_outputShape h.output }

theorem chained_of_resolveLayers (hrest : ∀ p ∈ rest, p.2 ≠ .input) (h : resolveLayers index shape rest = .ok layers) :
    Chained index shape layers := by
  induction rest generalizing index shape layers with
  | nil =>
      obtain rfl := Except.ok.inj h
      exact .nil
  | cons entry rest ih =>
      obtain ⟨layer, tail, hlayer, htail, rfl⟩ := resolveLayers_cons_eq_ok.mp h
      obtain ⟨hentry, hrest⟩ := List.forall_mem_cons.mp hrest
      rw [← hlayer.input_eq]
      exact .cons hlayer.index_eq (sound_of_resolves hentry hlayer) (ih hrest htail)

/-- What the tags of the records after the first are checked for. -/
theorem ne_input_of_checkRest {start : Nat} {records : List LayerRecord} (h : checkRest start records = .ok rest) :
    ∀ p ∈ rest, p.2 ≠ .input := by
  induction records generalizing start rest with
  | nil =>
      obtain rfl := Except.ok.inj h
      simp
  | cons record records ih =>
      obtain ⟨t, tail, _, ht, htail, rfl⟩ := checkRest_cons.mp h
      exact List.forall_mem_cons.mpr ⟨ht, ih htail⟩

theorem ne_input_of_checkStructure {records : List LayerRecord} {first : LayerRecord}
    (h : checkStructure records = .ok (first, rest)) : ∀ p ∈ rest, p.2 ≠ .input := by
  cases records with
  | nil => contradiction
  | cons record records =>
      simp only [checkStructure] at h
      split at h
      · contradiction
      · simp only [bind_eq_ok] at h
        obtain ⟨rest', hrest, h⟩ := h
        split at h
        · contradiction
        · obtain ⟨rfl, rfl⟩ := Prod.mk.inj (Except.ok.inj h)
          exact ne_input_of_checkRest hrest

/-- The shape a plan starts from: as it was declared, or with a channel axis after two others. -/
structure Opens (declared input : Shape) : Prop where
  positive : declared.Positive
  rank : 1 ≤ declared.length ∧ declared.length ≤ 3
  input_eq : input = declared ∨ declared.length = 2 ∧ input = declared ++ [1]

theorem opens_of_outline {records : List LayerRecord} {o : Outline} (h : outline records = .ok o) :
    Opens o.declared o.input ∧ ∀ p ∈ o.rest, p.2 ≠ .input := by
  simp only [outline, bind_eq_ok, pure_eq_ok, Analysis.ofDesign_eq_ok, Analysis.ofFault_eq_ok] at h
  obtain ⟨⟨first, rest⟩, hstructure, params, hparams, declared, hdeclared, rfl⟩ := h
  obtain ⟨shape, hshape, hone, hthree, hpositive⟩ :=
    LayerConfig.inputShape?_of_complete (LayerType.complete_of_resolveParams hparams)
  obtain rfl := Except.ok.inj (hdeclared.symm.trans hshape)
  refine ⟨⟨hpositive, ⟨hone, hthree⟩, ?_⟩, ne_input_of_checkStructure hstructure⟩
  cases rest with
  | nil => exact .inl rfl
  | cons entry tail =>
      by_cases hpromotes : (promotesChannels entry.2 && declared.length == 2) = true
      · exact .inr ⟨by simpa using (Bool.and_eq_true_iff.mp hpromotes).2, if_pos hpromotes⟩
      · exact .inl (if_neg hpromotes)

/-- The layers of a plan are sound, in a row from the shape the plan starts from. -/
theorem chained_of_ofRecords {records : List LayerRecord} {plan : ShapePlan} (h : ofRecords records = .ok plan) :
    Opens plan.declared plan.input ∧ Chained 1 plan.input plan.layers := by
  simp only [ofRecords, bind_eq_ok, pure_eq_ok] at h
  obtain ⟨o, houtline, layers, hlayers, rfl⟩ := h
  obtain ⟨hopens, hrest⟩ := opens_of_outline houtline
  exact ⟨hopens, chained_of_resolveLayers hrest hlayers⟩

/-- Each of them is sound, and takes a shape with rows of at least one number. -/
theorem Chained.sound_of_mem (h : Chained index shape layers) (hwide : shape.Wide) {layer : ResolvedLayer}
    (hlayer : layer ∈ layers) : Sound layer ∧ layer.input.Wide := by
  induction h with
  | nil => simp at hlayer
  | cons hindex hsound hrest ih =>
      rcases List.mem_cons.mp hlayer with rfl | hlayer
      · exact ⟨hsound, hwide⟩
      · exact ih (LayerConfig.wide_of_makes hsound.valid hwide hsound.makes) hlayer

/-- The first layers of a row are in a row. -/
theorem Chained.take (h : Chained index shape layers) (count : Nat) : Chained index shape (layers.take count) := by
  induction h generalizing count with
  | nil => simpa using .nil
  | cons hindex hsound hrest ih =>
      cases count with
      | zero => exact .nil
      | succ count => exact .cons hindex hsound (ih count)

theorem Opens.input_ne_nil {declared input : Shape} (h : Opens declared input) : input ≠ [] := by
  have hrank := h.rank.1
  rcases h.input_eq with rfl | ⟨_, rfl⟩
  · exact List.ne_nil_of_length_pos hrank
  · exact List.append_ne_nil_of_right_ne_nil _ (List.cons_ne_nil _ _)

theorem Opens.positive_input {declared input : Shape} (h : Opens declared input) : input.Positive := by
  rcases h.input_eq with rfl | ⟨_, rfl⟩
  · exact h.positive
  · intro n hn
    rcases List.mem_append.mp hn with hn | hn
    · exact h.positive n hn
    · rw [List.mem_singleton.mp hn]

end ShapePlan

end LayerStack
