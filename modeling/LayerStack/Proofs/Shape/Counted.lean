import LayerStack.Proofs.Operator.Made

/-!
# LayerStack.Proofs.Shape.Counted

Sizes along a design, as long as its flattened shapes are counted.

The lengths of a flattened shape are multiplied in machine numbers, and their product is the number of entries exactly where
that has a place among these (`Shape.Counted`, `wordProduct_eq_iff`).  Everything else that a layer does to a shape keeps
its axes at one cell at least.  So up to the first flattened shape that is not counted no axis is shorter than that, and no
operator is built for fewer than one input (`sized_of_ofRecords`).
-/

namespace LayerStack

namespace Shape

/-- The entries of a shape can be counted in the numbers that its lengths are multiplied in: words with a sign, integers of
any size, words without a sign, or doubles. -/
def Counted (shape : Shape) : Prop :=
  if shape.all (· < Word.half) then shape.entries < Word.half
  else if shape.any ((Word.count : Int) ≤ ·) then True
  else if shape.all ((Word.half : Int) ≤ ·) then shape.entries < Word.count
  else shape.doubleProduct = shape.entries

variable {shape : Shape}

/-- A number of at least one is a word with a sign exactly where wrapping leaves it what it is. -/
theorem wrapSigned_eq_iff {n : Int} (hn : 1 ≤ n) : Word.wrapSigned n = n ↔ n < Word.half := by
  rw [Word.wrapSigned]
  constructor
  · intro h
    have hlt : n.bmod Word.count < ((Word.count : Int) + 1) / 2 := Int.bmod_lt (by decide)
    simp only [Word.count, Word.half] at h hlt ⊢
    omega
  · intro h
    simp only [Word.half, Word.count] at h ⊢
    apply Int.bmod_eq_of_le <;> omega

/-- It is one without a sign exactly where that wrapping does. -/
theorem wrap_eq_iff {n : Int} (hn : 1 ≤ n) : Word.wrap n = n ↔ n < Word.count := by
  rw [Word.wrap]
  simp only [Word.count]
  omega

/-- The product of the lengths is the number of entries exactly where these are counted. -/
theorem wordProduct_eq_iff (h : shape.Positive) : shape.wordProduct = shape.entries ↔ shape.Counted := by
  have hpos := one_le_entries h
  have hproduct : shape.foldl (· * ·) 1 = shape.entries := rfl
  simp only [wordProduct, Counted, hproduct]
  split_ifs
  · exact wrapSigned_eq_iff hpos
  · simp
  · exact wrap_eq_iff hpos
  · exact Iff.rfl

/-- Entries fewer than half of the words are counted. -/
theorem counted_of_lt (h : shape.Positive) (hfew : shape.entries < Word.half) : shape.Counted :=
  (wordProduct_eq_iff h).mp (wordProduct_eq h hfew)

theorem one_le_lastLength (h : shape.Positive) (hne : shape ≠ []) : 1 ≤ shape.lastLength := by
  have hlast : 1 ≤ shape.getLast hne := h _ (List.getLast_mem hne)
  rw [lastLength, List.getLastD_eq_getLast?, List.getLast?_eq_some_getLast hne, Option.getD_some]
  omega

end Shape

/-! ## Fans -/

/-- Values are as wide as they are given, or as keys are. -/
theorem AttentionConfig.one_le_valueSize {c : AttentionConfig} (hkey : 1 ≤ c.keyWidth)
    (hvalue : ∀ width ∈ c.valueWidth, 1 ≤ width) : 1 ≤ c.valueSize := by
  rw [valueSize]
  cases hgiven : c.valueWidth with
  | none => simpa using hkey
  | some width =>
      have hone := hvalue width hgiven
      split <;> simp_all

namespace Operator

variable {α : Type} {config : LayerConfig} {shape out : Shape} {o : Operator α}

/-- How many inputs the weights of an operator take, one number for each of them. -/
def fanIns : Operator α → List Nat
  | .dense (m := m) _ => [m]
  | .conv2d (z := z) _ => [z.grid.rows.kernel * z.grid.columns.kernel * z.channels]
  | .attention (d := d) (h := h) (k := k) (v := v) _ => (attentionFans d h k v).map (·.1)
  | .feedForward (d := d) (f := f) _ => [d, f]
  | .transformerBlock (d := d) (h := h) (k := k) (f := f) _ => (attentionFans d h k k).map (·.1) ++ [d, f]
  | .maxPool2D .. | .dropout .. | .flatten _ | .average _ | .layerNorm _ | .embedding _ | .positions _ | .undefined => []

/-- Weights of self-attention take at least one input if all widths are at least one. -/
theorem one_le_attentionFans {d h k v : Nat} (hd : 1 ≤ d) (hh : 1 ≤ h) (hv : 1 ≤ v) :
    ∀ fan ∈ (attentionFans d h k v).map (·.1), 1 ≤ fan := by
  have hvalues : 1 ≤ h * v := Nat.mul_pos hh hv
  simpa [attentionFans] using ⟨hd, hvalues⟩

/-- What is made for valid settings and a shape without empty axes takes at least one input everywhere. -/
theorem one_le_fanIns (hvalid : config.Valid) (hshape : shape.Positive) (hmakes : LayerConfig.Makes config shape out)
    (hmade : MadeFor config shape o) : ∀ fan ∈ o.fanIns, 1 ≤ fan := by
  have htoNat {n : Int} (hn : 1 ≤ n) : 1 ≤ n.toNat := by omega
  cases hmade with
  | dense cell =>
      cases hmakes with
      | dense =>
          exact List.forall_mem_singleton.mpr (Shape.one_le_lastLength hshape (List.cons_ne_nil _ _))
  | @conv2d c shape cell =>
      cases hmakes with
      | conv2d hwindows =>
          have hwidth := Shape.one_le_lastLength hshape (List.cons_ne_nil _ _)
          obtain ⟨_, ⟨hheight, hbreadth⟩, _⟩ := hvalid
          have hfield : 1 ≤ c.kernel.1.toNat * c.kernel.2.toNat := Nat.mul_pos (htoNat hheight) (htoNat hbreadth)
          exact List.forall_mem_singleton.mpr (Nat.mul_pos hfield hwidth)
  | @multiHeadAttention c shape cell =>
      cases hmakes with
      | multiHeadAttention =>
          have hwidth := Shape.one_le_lastLength hshape (List.cons_ne_nil _ _)
          obtain ⟨hheads, hkey, hvalue, _⟩ := hvalid
          have hvalueSize := AttentionConfig.one_le_valueSize hkey hvalue
          exact one_le_attentionFans hwidth (htoNat hheads) (htoNat hvalueSize)
  | @transformerBlock c shape cell =>
      cases hmakes with
      | @transformerBlock _ length width =>
          have hwidth := Shape.one_le_lastLength hshape (List.cons_ne_nil _ _)
          obtain ⟨hheads, hkey, hhidden, _⟩ := hvalid
          have hinner : 1 ≤ innerWidth c.hidden.toNat (Shape.lastLength [length, width]) := by
            rw [innerWidth]
            split
            · omega
            · exact htoNat hhidden
          intro fan hfan
          rcases List.mem_append.mp hfan with hfan | hfan
          · exact one_le_attentionFans hwidth (htoNat hheads) (htoNat hkey) fan hfan
          · simp only [List.mem_cons, List.not_mem_nil, or_false] at hfan
            rcases hfan with rfl | rfl
            · exact hwidth
            · exact hinner
  | maxpool2d _ | dropout _ _ | flatten _ | embedding _ | layerNorm _ _ _ | positionalEncoding _ _ _ _ | globalAvgPool1d _ =>
      simp [fanIns]

end Operator

/-! ## Designs -/

namespace ShapePlan

variable {layer : ResolvedLayer} {layers before after : List ResolvedLayer} {index : Nat} {shape : Shape}

/-- Only the flatten type has the settings of one. -/
theorem Sound.config_eq_flatten (hsound : Sound layer) : layer.config = .flatten ↔ layer.type = .flatten := by
  have hconfig := hsound.config
  constructor
  · intro hflatten
    rw [hflatten] at hconfig
    cases htype : layer.type <;> rw [htype] at hconfig <;> simp [LayerConfig.ofParams, map_eq_ok, bind_eq_ok] at hconfig
  · intro htype
    rw [htype] at hconfig
    exact (Except.ok.inj hconfig).symm

/-- A flatten layer makes the product of the lengths, in machine numbers. -/
theorem Sound.output_of_flatten (hsound : Sound layer) (htype : layer.type = .flatten) :
    layer.output = [layer.input.wordProduct] := by
  have hmakes := hsound.makes
  rw [hsound.config_eq_flatten.mpr htype] at hmakes
  generalize layer.input = input, layer.output = output at hmakes
  cases hmakes
  rfl

/-- Axes stay of at least one cell, unless a flattened shape is not counted. -/
theorem Sound.positive_output (hsound : Sound layer) (hinput : layer.input.Positive)
    (hcounted : layer.type = .flatten → layer.input.Counted) : layer.output.Positive := by
  refine LayerConfig.positive_of_counted hsound.valid hinput (fun hflatten => ?_) hsound.makes
  exact (Shape.wordProduct_eq_iff hinput).mpr (hcounted (hsound.config_eq_flatten.mp hflatten))

/-- In a row of layers the axes are of at least one cell up to the first flattened shape that is not counted. -/
theorem Chained.positive_input (h : Chained index shape (before ++ layer :: after)) (hshape : shape.Positive)
    (hcounted : ∀ l ∈ before, l.type = .flatten → l.input.Counted) : Sound layer ∧ layer.input.Positive := by
  induction before generalizing index shape with
  | nil =>
      cases h with
      | cons _ hsound _ => exact ⟨hsound, hshape⟩
  | cons first before ih =>
      obtain ⟨hfirst, hbefore⟩ := List.forall_mem_cons.mp hcounted
      cases h with
      | cons _ hsound hrest => exact ih hrest (hsound.positive_output hshape hfirst) hbefore

/-- What is known of the sizes of a layer. -/
structure Sized (layer : ResolvedLayer) : Prop where
  /-- It takes axes of at least one cell. -/
  input : layer.input.Positive
  /-- If it flattens, the length of its output is the product of the lengths exactly where the entries are counted. -/
  flatten : layer.type = .flatten → (layer.output = [layer.input.prod] ↔ layer.input.Counted)
  /-- It makes axes of at least one cell, unless it flattens a shape that is not counted. -/
  output : (layer.type = .flatten → layer.input.Counted) → layer.output.Positive
  /-- An operator that is built for it takes at least one input with each of its weights. -/
  fanIns : ∀ (α : Type) [Scalar α] (stream : Stream) (o : Operator α),
    (layer.config.build layer.input stream : Except RunError (Operator α) × Stream).1 = .ok o → ∀ fan ∈ o.fanIns, 1 ≤ fan

theorem sized_of_sound (hsound : Sound layer) (hinput : layer.input.Positive) : Sized layer where
  input := hinput
  flatten htype := by
    rw [hsound.output_of_flatten htype, ← Shape.wordProduct_eq_iff hinput, List.singleton_inj, Shape.entries_eq_prod]
  output := hsound.positive_output hinput
  fanIns α _ stream o ho := by
    rcases Operator.builds_build (α := α) hsound.valid (Shape.wide_of_positive hinput) hsound.makes stream with
      ⟨o', ho', hmade⟩ | hlarge
    · obtain rfl := Except.ok.inj (ho.symm.trans ho')
      exact Operator.one_le_fanIns hsound.valid hinput hsound.makes hmade
    · exact absurd (ho.symm.trans hlarge) nofun

/-- Sizes along a design that is accepted.  The declared shape has no empty axis, nor has the one that the first layer takes.
Up to the first flattened shape whose entries are not counted in machine numbers no layer has one either, flattening keeps
the number of entries, and no operator is built for fewer than one input.  Of a flattened shape that is not counted the
length is another one. -/
theorem sized_of_ofRecords {records : List LayerRecord} {plan : ShapePlan} (h : ofRecords records = .ok plan) :
    plan.declared.Positive ∧ plan.input.Positive ∧
      ∀ before layer after, plan.layers = before ++ layer :: after →
        (∀ l ∈ before, l.type = .flatten → l.input.Counted) → Sized layer := by
  obtain ⟨hopens, hchained⟩ := chained_of_ofRecords h
  refine ⟨hopens.positive, hopens.positive_input, fun before layer after hlayers hcounted => ?_⟩
  rw [hlayers] at hchained
  obtain ⟨hsound, hinput⟩ := hchained.positive_input hopens.positive_input hcounted
  exact sized_of_sound hsound hinput

/-- Flattened images and a dense layer. -/
def flattened (height width : Int) : List LayerRecord := [
  { type := "input", params := [(.text "shape", .list [.int height, .int width])] },
  { type := "flatten" },
  { type := "dense", params := [(.text "units", .int 3)] }]

/-- Images of two by three cells have six entries, which the dense layer takes. -/
theorem sized_of_flattened :
    ∃ plan first last, ofRecords (flattened 2 3) = .ok plan ∧ plan.layers = [first, last] ∧ first.type = .flatten ∧
      first.input.Counted ∧ last.input = [6] ∧ Sized first ∧ Sized last := by
  have hcounted : Shape.Counted [2, 3, 1] := Shape.counted_of_lt (by simp [Shape.Positive]) (by decide)
  have haccepted : ∃ plan, ofRecords (flattened 2 3) = .ok plan ∧
      plan.layers.map (·.input) = [[2, 3, 1], [6]] ∧ plan.layers.map (·.type) = [.flatten, .dense] := ⟨_, rfl, rfl, rfl⟩
  obtain ⟨plan, hplan, hinputs, htypes⟩ := haccepted
  have hlength : plan.layers.length = 2 := by simpa using congrArg List.length hinputs
  obtain ⟨first, last, hlayers⟩ := List.length_eq_two.mp hlength
  simp only [hlayers, List.map_cons, List.map_nil, List.cons.injEq, and_true] at hinputs htypes
  rw [← hinputs.1] at hcounted
  have hsized := (sized_of_ofRecords hplan).2.2
  refine ⟨plan, first, last, hplan, hlayers, htypes.1, hcounted, hinputs.2, hsized [] first [last] hlayers (by simp), ?_⟩
  exact hsized [first] last [] hlayers (List.forall_mem_singleton.mpr fun _ => hcounted)

/-- Images of two to the power of 32 cells along both axes are flattened to no entries at all. -/
theorem flattened_to_nothing :
    ∃ plan, ofRecords (flattened 4294967296 4294967296) = .ok plan ∧
      plan.shapes = [[4294967296, 4294967296], [0], [3]] ∧
      plan.layers.map (·.input) = [[4294967296, 4294967296, 1], [0]] := ⟨_, rfl, rfl, rfl⟩

end ShapePlan

end LayerStack
