import LayerStack.Proofs.Outcome
import LayerStack.Shape.Plan

/-!
# LayerStack.Proofs.Shape.Step

The analysis of a design, one layer at a time.

`resolveLayer` is what the analysis does at one layer, and `resolveLayers_cons` says that the analysis of a list of
layers is that step and then the analysis of the rest on the shape it came to.  What a step can come to is said once:
`resolveLayer_eq_ok` for a layer that takes its shape, `resolveLayer_eq_error` for one that ends the analysis.
-/

namespace LayerStack.ShapePlan

variable {index : Nat} {shape : Shape} {record : LayerRecord} {t : LayerType} {params : Entries String Value}
  {layer : ResolvedLayer} {layers : List ResolvedLayer} {rest : List (LayerRecord × LayerType)} {e : AnalysisError}

/-! ## Tags -/

/-- What checking the tags of the records after the first comes to, record by record. -/
theorem checkRest_cons {start : Nat} {records : List LayerRecord} :
    checkRest start (record :: records) = .ok rest ↔
      ∃ t tail, LayerType.ofTag? record.type = some t ∧ t ≠ .input ∧ checkRest (start + 1) records = .ok tail ∧
        (record, t) :: tail = rest := by
  rw [checkRest]
  cases LayerType.ofTag? record.type with
  | none => simp
  | some t => cases t <;> simp [map_eq_ok]

/-! ## Parameters -/

/-- Parameters are resolved exactly where nothing is wrong with them. -/
theorem resolveParams_eq_ok :
    resolveParams index record t = .ok params ↔
      ∃ v, Validation.ofParams t record.params = .ok v ∧ v.isValid ∧ t.optionalDefaults.putAll v.values = params := by
  simp only [resolveParams, bind_eq_ok, Analysis.ofFault_eq_ok]
  refine exists_congr fun v => and_congr_right fun _ => ?_
  cases hv : v.isValid <;> simp [pure, Except.pure]

/-- The design is blamed exactly where something is wrong with them, and with all that is wrong. -/
theorem resolveParams_eq_error {d : DesignError} :
    resolveParams index record t = .error (.design d) ↔
      ∃ v, Validation.ofParams t record.params = .ok v ∧ v.isValid = false ∧
        .parameters t.tag (v.messages.map fun (key, reasons) => (key.toText, reasons)) (some index) = d := by
  simp only [resolveParams, bind_eq_error, Analysis.ofFault_eq_ok, Analysis.ofFault_ne_design, false_or]
  refine exists_congr fun v => and_congr_right fun _ => ?_
  cases hv : v.isValid <;> simp [pure, Except.pure]

/-! ## One layer -/

/-- A layer checked, completed, and given its shapes. -/
def resolveLayer (index : Nat) (shape : Shape) (record : LayerRecord) (t : LayerType) : Analysis ResolvedLayer := do
  let params ← resolveParams index record t
  let config ← Analysis.ofFault (LayerConfig.ofParams t params)
  match config.outputShape shape with
  | .error mismatch => .error (.design (.shape index t.tag mismatch.message))
  | .ok output => return { index, record, type := t, params, config, input := shape, output }

/-- A layer is analysed, and then those after it on the shape it came to. -/
theorem resolveLayers_cons :
    resolveLayers index shape ((record, t) :: rest) = (do
      let layer ← resolveLayer index shape record t
      let layers ← resolveLayers (index + 1) layer.output rest
      return layer :: layers) := by
  rw [resolveLayers, resolveLayer]
  cases resolveParams index record t with
  | error e => rfl
  | ok params =>
      cases hconfig : Analysis.ofFault (LayerConfig.ofParams t params) with
      | error e => simp [bind, Except.bind, hconfig]
      | ok config =>
          cases houtput : config.outputShape shape with
          | error mismatch => simp [bind, Except.bind, hconfig, houtput]
          | ok output => simp [bind, Except.bind, hconfig, houtput, pure, Except.pure]

/-- What is known of a layer that was resolved at a place and for a shape. -/
structure Resolves (index : Nat) (shape : Shape) (record : LayerRecord) (t : LayerType) (layer : ResolvedLayer) :
    Prop where
  index_eq : layer.index = index
  record_eq : layer.record = record
  type_eq : layer.type = t
  input_eq : layer.input = shape
  params : resolveParams index record t = .ok layer.params
  config : LayerConfig.ofParams t layer.params = .ok layer.config
  output : layer.config.outputShape shape = .ok layer.output

theorem resolveLayer_eq_ok : resolveLayer index shape record t = .ok layer ↔ Resolves index shape record t layer := by
  simp only [resolveLayer, bind_eq_ok, Analysis.ofFault_eq_ok]
  constructor
  · rintro ⟨params, hparams, config, hconfig, h⟩
    split at h
    · contradiction
    · next output houtput =>
        obtain rfl := Except.ok.inj h
        exact ⟨rfl, rfl, rfl, rfl, hparams, hconfig, houtput⟩
  · rintro ⟨rfl, rfl, rfl, rfl, hparams, hconfig, houtput⟩
    refine ⟨layer.params, hparams, layer.config, hconfig, ?_⟩
    rw [houtput]
    rfl

/-- A layer ends the analysis by its parameters, or, where those are resolved, by a fault or by the shape. -/
theorem resolveLayer_eq_error (h : resolveLayer index shape record t = .error e) :
    resolveParams index record t = .error e ∨
      (∃ params, resolveParams index record t = .ok params) ∧
        ((∃ f, e = .fault f) ∨ ∃ reason, e = .design (.shape index t.tag reason)) := by
  simp only [resolveLayer, bind_eq_error] at h
  rcases h with hparams | ⟨params, hparams, h⟩
  · exact .inl hparams
  · refine .inr ⟨⟨params, hparams⟩, ?_⟩
    rcases h with hconfig | ⟨config, _, h⟩
    · cases e with
      | design d => exact absurd hconfig Analysis.ofFault_ne_design
      | fault f => exact .inl ⟨f, rfl⟩
    · split at h
      · exact .inr ⟨_, (Except.error.inj h).symm⟩
      · contradiction

/-! ## Many layers -/

theorem resolveLayers_cons_eq_ok :
    resolveLayers index shape ((record, t) :: rest) = .ok layers ↔
      ∃ layer tail, Resolves index shape record t layer ∧
        resolveLayers (index + 1) layer.output rest = .ok tail ∧ layer :: tail = layers := by
  rw [resolveLayers_cons]
  simp only [bind_eq_ok, pure_eq_ok, resolveLayer_eq_ok]
  constructor
  · rintro ⟨layer, hlayer, tail, htail, h⟩
    exact ⟨layer, tail, hlayer, htail, h⟩
  · rintro ⟨layer, tail, hlayer, htail, h⟩
    exact ⟨layer, hlayer, tail, htail, h⟩

theorem resolveLayers_cons_eq_error :
    resolveLayers index shape ((record, t) :: rest) = .error e ↔
      resolveLayer index shape record t = .error e ∨
        ∃ layer, Resolves index shape record t layer ∧ resolveLayers (index + 1) layer.output rest = .error e := by
  rw [resolveLayers_cons]
  simp only [bind_eq_error, pure_ne_error, and_false, exists_false, or_false, resolveLayer_eq_ok]

end LayerStack.ShapePlan
