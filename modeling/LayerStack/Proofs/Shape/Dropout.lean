import LayerStack.Proofs.Operator.Undropped
import LayerStack.Proofs.Parameter.Normal
import LayerStack.Proofs.Shape.Prefix

/-!
# LayerStack.Proofs.Shape.Dropout

Designs that differ in dropout rates.

Records are alike if they are the same but for the parameter that is a dropout rate, which each of them may give as it
likes or leave out (`LayerRecord.Alike`).  Of alike records the analysis makes alike layers: settings that are the same
without their rate, and the same shapes.  The main statement is `alike_of_ofRecords`.
-/

namespace LayerStack

/-- The parameter of a layer that is a dropout rate. -/
def LayerType.rateName? : LayerType → Option String
  | .dropout => some "rate"
  | .multiHeadAttention | .transformerBlock => some "dropout"
  | _ => none

/-- Is a parameter of a record a dropout rate? -/
def LayerRecord.IsRate (record : LayerRecord) (name : String) : Prop :=
  ∃ t, LayerType.ofTag? record.type = some t ∧ t.rateName? = some name

/-- Records that are the same but for a dropout rate. -/
structure LayerRecord.Alike (record record' : LayerRecord) : Prop where
  type : record'.type = record.type
  params : ∀ name, ¬ record.IsRate name → record'.params.value name = record.params.value name

/-- A record of a type with parameters under their names, and a dropout rate if it is given and the type has one. -/
def LayerRecord.withRate (t : LayerType) (params : Entries String Value) (rate : Option Value) : LayerRecord :=
  { type := t.tag, params := .ofNamed (params ++ (t.rateName?.bind fun name => rate.map (name, ·)).toList) }

/-- Records that are written alike but for a rate are alike. -/
theorem LayerRecord.alike_withRate (t : LayerType) (params : Entries String Value) (rate rate' : Option Value) :
    (withRate t params rate).Alike (withRate t params rate') := by
  refine ⟨rfl, fun name hname => ?_⟩
  have hnone (rate : Option Value) :
      List.lookup name (t.rateName?.bind fun name => rate.map (name, ·)).toList = none := by
    cases hrate : t.rateName? with
    | none => rfl
    | some rateName =>
        have hother : (name == rateName) = false := by
          rw [beq_eq_false_iff_ne]
          rintro rfl
          exact hname ⟨t, LayerType.ofTag?_tag t, hrate⟩
        cases rate <;> simp [List.lookup_cons, hother]
  simp only [withRate, Mapping.value_ofNamed, List.lookup_append, hnone]

/-- Layers that are the same but for a dropout rate. -/
structure ResolvedLayer.Alike (layer layer' : ResolvedLayer) : Prop where
  index : layer'.index = layer.index
  type : layer'.type = layer.type
  config : layer'.config.undropped = layer.config.undropped
  input : layer'.input = layer.input
  output : layer'.output = layer.output

/-- Plans that are the same but for dropout rates. -/
structure ShapePlan.Alike (plan plan' : ShapePlan) : Prop where
  declared : plan'.declared = plan.declared
  input : plan'.input = plan.input
  layers : List.Forall₂ ResolvedLayer.Alike plan.layers plan'.layers

theorem ShapePlan.Alike.refl (plan : ShapePlan) : plan.Alike plan :=
  ⟨rfl, rfl, List.forall₂_same.mpr fun _ _ => ⟨rfl, rfl, rfl, rfl, rfl⟩⟩

/-- What related things have in common is the same along related lists. -/
theorem map_eq_of_forall₂ {β γ : Type} {R : β → β → Prop} {f : β → γ} (hf : ∀ b b', R b b' → f b' = f b) {bs bs' : List β}
    (h : List.Forall₂ R bs bs') : bs'.map f = bs.map f := by
  induction h with
  | nil => rfl
  | cons hfirst _ ih => rw [List.map_cons, List.map_cons, hf _ _ hfirst, ih]

/-! ## Settings -/

namespace LayerConfig

variable {t : LayerType} {params params' : Params} {config config' : LayerConfig}

theorem read_congr {β : Type} {name : String} (h : params'.lookup name = params.lookup name) (form : Value → Option β) :
    read params' name form = read params name form := by
  rw [read, read, h]

theorem readOptional_congr {β : Type} {name : String} (h : params'.lookup name = params.lookup name)
    (form : Value → Option β) : readOptional params' name form = readOptional params name form := by
  rw [readOptional, readOptional, h, read_congr h]

/-- Settings read from parameters that are the same but for a rate are the same without it. -/
theorem undropped_of_ofParams (h : ofParams t params = .ok config) (h' : ofParams t params' = .ok config')
    (hlookup : ∀ p ∈ t.schema, t.rateName? ≠ some p.1 → params'.lookup p.1 = params.lookup p.1) :
    config'.undropped = config.undropped := by
  have heq (hsame : ofParams t params' = ofParams t params) : config'.undropped = config.undropped := by
    rw [Except.ok.inj ((hsame.symm.trans h').symm.trans h)]
  cases t with
  | input => contradiction
  | dropout =>
      obtain ⟨rate, _, rfl⟩ := map_eq_ok.mp h
      obtain ⟨rate', _, rfl⟩ := map_eq_ok.mp h'
      rfl
  | multiHeadAttention =>
      obtain ⟨c, hc, rfl⟩ := map_eq_ok.mp h
      obtain ⟨c', hc', rfl⟩ := map_eq_ok.mp h'
      simp [LayerType.schema, LayerType.rateName?] at hlookup
      obtain ⟨hheads, hkey, hvalue, hbias⟩ := hlookup
      simp only [multiHeadAttention?, read_congr hheads, read_congr hkey, readOptional_congr hvalue, read_congr hbias,
        bind_eq_ok, pure_eq_ok] at hc hc'
      grind [undropped]
  | transformerBlock =>
      obtain ⟨c, hc, rfl⟩ := map_eq_ok.mp h
      obtain ⟨c', hc', rfl⟩ := map_eq_ok.mp h'
      simp [LayerType.schema, LayerType.rateName?] at hlookup
      obtain ⟨hheads, hkey, hhidden⟩ := hlookup
      simp only [transformerBlock?, read_congr hheads, read_congr hkey, read_congr hhidden, bind_eq_ok, pure_eq_ok] at hc hc'
      grind [undropped]
  | flatten | globalAvgPool1d => exact heq rfl
  | dense | output | conv2d | maxpool2d | embedding | layerNorm | positionalEncoding =>
      refine heq ?_
      simp [LayerType.schema, LayerType.denseSchema, LayerType.rateName?] at hlookup
      simp only [ofParams, dense?, conv2d?, maxpool2d?, embedding?, layerNorm?, read, readOptional, hlookup]

end LayerConfig

/-! ## Layers -/

namespace ShapePlan

variable {t : LayerType} {params params' : Entries String Value} {index index' : Nat} {shape : Shape}
  {record record' : LayerRecord} {records records' : List LayerRecord} {layer layer' : ResolvedLayer}
  {layers layers' : List ResolvedLayer} {rest rest' : List (LayerRecord × LayerType)}

/-- Under a name of the schema resolved parameters hang on the value that was given under it alone. -/
theorem lookup_congr (h : resolveParams index record t = .ok params) (h' : resolveParams index' record' t = .ok params')
    {p : String × ParameterSpec} (hp : p ∈ t.schema)
    (hvalue : record'.params.value p.1 = record.params.value p.1) : params'.lookup p.1 = params.lookup p.1 := by
  obtain ⟨w, hw, _, hlookup⟩ := lookup_of_resolveParams h hp
  obtain ⟨w', hw', _, hlookup'⟩ := lookup_of_resolveParams h' hp
  rw [hvalue] at hw'
  obtain rfl := Except.ok.inj (hw.symm.trans hw')
  rw [hlookup, hlookup']

/-- Records with the types of their tags that are the same but for a dropout rate. -/
def AlikeTyped (p p' : LayerRecord × LayerType) : Prop :=
  p'.2 = p.2 ∧ LayerType.ofTag? p.1.type = some p.2 ∧ p.1.Alike p'.1

theorem alikeTyped_of_checkRest {start : Nat} (hrecords : List.Forall₂ LayerRecord.Alike records records')
    (h : checkRest start records = .ok rest) (h' : checkRest start records' = .ok rest') :
    List.Forall₂ AlikeTyped rest rest' := by
  induction hrecords generalizing start rest rest' with
  | nil =>
      obtain rfl := Except.ok.inj h
      obtain rfl := Except.ok.inj h'
      exact .nil
  | @cons record record' records records' hrecord hrecords ih =>
      obtain ⟨t, tail, htag, _, htail, rfl⟩ := checkRest_cons.mp h
      obtain ⟨t', tail', htag', _, htail', rfl⟩ := checkRest_cons.mp h'
      rw [hrecord.type] at htag'
      exact .cons ⟨Option.some.inj (htag'.symm.trans htag), htag, hrecord⟩ (ih htail htail')

theorem alike_of_resolves (htag : LayerType.ofTag? record.type = some t) (hrecord : record.Alike record')
    (h : Resolves index shape record t layer) (h' : Resolves index shape record' t layer') : layer.Alike layer' := by
  have hlookup : ∀ p ∈ t.schema, t.rateName? ≠ some p.1 → layer'.params.lookup p.1 = layer.params.lookup p.1 := by
    intro p hp hrate
    refine lookup_congr h.params h'.params hp (hrecord.params p.1 ?_)
    rintro ⟨t', htag', hrate'⟩
    obtain rfl := Option.some.inj (htag.symm.trans htag')
    exact hrate hrate'
  have hconfig := LayerConfig.undropped_of_ofParams h.config h'.config hlookup
  have houtput : layer'.config.outputShape shape = layer.config.outputShape shape := by
    rw [← LayerConfig.outputShape_undropped, hconfig, LayerConfig.outputShape_undropped]
  refine ⟨h'.index_eq.trans h.index_eq.symm, h'.type_eq.trans h.type_eq.symm, hconfig, h'.input_eq.trans h.input_eq.symm, ?_⟩
  rw [h.output, h'.output] at houtput
  exact Except.ok.inj houtput

theorem alike_of_resolveLayers (hrest : List.Forall₂ AlikeTyped rest rest')
    (h : resolveLayers index shape rest = .ok layers) (h' : resolveLayers index shape rest' = .ok layers') :
    List.Forall₂ ResolvedLayer.Alike layers layers' := by
  induction hrest generalizing index shape layers layers' with
  | nil =>
      obtain rfl := Except.ok.inj h
      obtain rfl := Except.ok.inj h'
      exact .nil
  | @cons p p' rest rest' hp hrest ih =>
      obtain ⟨record, t⟩ := p
      obtain ⟨record', t'⟩ := p'
      obtain ⟨rfl, htag, hrecord⟩ := hp
      obtain ⟨layer, tail, hlayer, htail, rfl⟩ := resolveLayers_cons_eq_ok.mp h
      obtain ⟨layer', tail', hlayer', htail', rfl⟩ := resolveLayers_cons_eq_ok.mp h'
      have halike := alike_of_resolves htag hrecord hlayer hlayer'
      rw [halike.output] at htail'
      exact .cons halike (ih htail htail')

/-! ## Designs -/

/-- Designs of alike records have alike plans. -/
theorem alike_of_ofRecords {plan plan' : ShapePlan} (hrecords : List.Forall₂ LayerRecord.Alike records records')
    (h : ofRecords records = .ok plan) (h' : ofRecords records' = .ok plan') : plan.Alike plan' := by
  obtain ⟨first, tail, rest, rfl, hstarts⟩ := starts_of_ofRecords h
  obtain ⟨first', tail', rest', rfl, hstarts'⟩ := starts_of_ofRecords h'
  obtain ⟨params, hparams, hdeclared, hinput, hlayers⟩ := hstarts.ofRecords_eq_ok.mp h
  obtain ⟨params', hparams', hdeclared', hinput', hlayers'⟩ := hstarts'.ofRecords_eq_ok.mp h'
  obtain ⟨hfirst, htail⟩ := List.forall₂_cons.mp hrecords
  have hrest := alikeTyped_of_checkRest htail hstarts.checked hstarts'.checked
  have htypes : rest'.map (·.2) = rest.map (·.2) := map_eq_of_forall₂ (fun _ _ hp => hp.1) hrest
  have hshape : params'.lookup "shape" = params.lookup "shape" := by
    refine lookup_congr hparams hparams' (p := ("shape", _)) (List.mem_singleton_self _) (hfirst.params "shape" ?_)
    rintro ⟨t, htag, hrate⟩
    rw [hstarts.input] at htag
    obtain rfl : LayerType.input = t := Option.some.inj htag
    contradiction
  have hdeclared_eq : plan'.declared = plan.declared := by
    rw [LayerConfig.inputShape?, LayerConfig.read_congr hshape] at hdeclared'
    exact Except.ok.inj (hdeclared'.symm.trans hdeclared)
  have hinput_eq : plan'.input = plan.input := by rw [hinput, hinput', htypes, hdeclared_eq]
  rw [hinput_eq] at hlayers'
  exact ⟨hdeclared_eq, hinput_eq, alike_of_resolveLayers hrest hlayers hlayers'⟩

end ShapePlan

end LayerStack
