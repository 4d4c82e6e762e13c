import LayerStack.Proofs.Parameter.Normal
import LayerStack.Proofs.Shape.Chain
import LayerStack.Proofs.Shape.Prefix

/-!
# LayerStack.Proofs.Shape.Normal

The resolved parameters of a design are a normal form of it.

`ShapePlan.contents` lists what a plan says of every layer: the declared shape for the input, and for the others their
parameters, read, rounded and completed.  A design of these contents has the same plan but for its records
(`ofRecords_of_contents`), so to resolve once more changes nothing.  The main statement is `resolved_normal`.
-/

namespace LayerStack

/-- What the analysis looks at in a record. -/
def LayerRecord.content (record : LayerRecord) : String × Mapping := (record.type, record.params)

/-- A layer as its type and its complete parameters. -/
def ResolvedLayer.content (layer : ResolvedLayer) : String × Mapping := (layer.type.tag, .ofNamed layer.params)

namespace ShapePlan

/-- The parameters of an input layer that declares a shape. -/
def inputParams (shape : Shape) : Entries String Value := [("shape", .list (shape.map .int))]

/-- What a plan says of every layer, the input layer first. -/
def contents (plan : ShapePlan) : List (String × Mapping) :=
  (LayerType.input.tag, .ofNamed (inputParams plan.declared)) :: plan.layers.map ResolvedLayer.content

/-- A design written out from what its plan says of it. -/
def resolved (plan : ShapePlan) : List Value :=
  plan.contents.map fun (tag, params) => .mapping [(.text "type", .text tag), (.text "params", .mapping params)]

/-- The same plan of other records: every layer stays what it is and has another record for its own. -/
def withRecords (plan : ShapePlan) (records : List LayerRecord) : ShapePlan :=
  { plan with layers := plan.layers.zipWith (fun layer record => { layer with record }) records }

variable {plan : ShapePlan} {layers : List ResolvedLayer} {rest : List (LayerRecord × LayerType)} {shape : Shape}
  {record : LayerRecord} {records records' : List LayerRecord} {index : Nat} {params : Entries String Value}

/-! ## The layers -/

/-- The types of resolved layers are those that were found for their tags. -/
theorem types_of_resolveLayers (h : resolveLayers index shape rest = .ok layers) :
    layers.map (·.type) = rest.map (·.2) := by
  induction rest generalizing index shape layers with
  | nil =>
      obtain rfl := Except.ok.inj h
      rfl
  | cons entry rest ih =>
      obtain ⟨layer, tail, hlayer, htail, rfl⟩ := resolveLayers_cons_eq_ok.mp h
      rw [List.map_cons, List.map_cons, hlayer.type_eq, ih htail]

/-- Layers of the same types that are given resolved parameters are resolved as they were. -/
theorem resolveLayers_of_contents (h : resolveLayers index shape rest = .ok layers)
    (hcontents : records.map LayerRecord.content = layers.map ResolvedLayer.content) :
    resolveLayers index shape (records.zip (layers.map (·.type))) =
      .ok (layers.zipWith (fun layer record => { layer with record }) records) := by
  induction rest generalizing index shape layers records with
  | nil =>
      obtain rfl := Except.ok.inj h
      obtain rfl := List.map_eq_nil_iff.mp hcontents
      rfl
  | cons entry rest ih =>
      obtain ⟨layer, tail, hlayer, htail, rfl⟩ := resolveLayers_cons_eq_ok.mp h
      cases records with
      | nil => contradiction
      | cons record records =>
          obtain ⟨hhead, hrest⟩ := List.cons.inj hcontents
          obtain ⟨_, hparams⟩ := Prod.mk.inj hhead
          have hagain : resolveParams index record layer.type = .ok layer.params :=
            resolveParams_ofNamed (hlayer.type_eq ▸ hlayer.params) hparams
          have hresolves : Resolves index shape record layer.type { layer with record } :=
            ⟨hlayer.index_eq, rfl, rfl, hlayer.input_eq, hagain, hlayer.type_eq ▸ hlayer.config, hlayer.output⟩
          exact resolveLayers_cons_eq_ok.mpr ⟨_, _, hresolves, ih htail hrest, rfl⟩

/-- Records with the tags of known types pass, if none of the types is an input's. -/
theorem checkRest_of_tags {types : List LayerType} (htypes : ∀ t ∈ types, t ≠ .input)
    (htags : records.map (·.type) = types.map (·.tag)) (start : Nat) :
    checkRest start records = .ok (records.zip types) := by
  induction records generalizing types start with
  | nil => rfl
  | cons record records ih =>
      cases types with
      | nil => contradiction
      | cons t types =>
          obtain ⟨htag, hrest⟩ := List.cons.inj htags
          obtain ⟨ht, htypes⟩ := List.forall_mem_cons.mp htypes
          have hknown : LayerType.ofTag? record.type = some t := (congrArg _ htag).trans (LayerType.ofTag?_tag t)
          exact checkRest_cons.mpr ⟨t, _, hknown, ht, ih htypes hrest (start + 1), rfl⟩

/-! ## The input layer -/

theorem inputShape?_inputParams (shape : Shape) : LayerConfig.inputShape? (inputParams shape) = .ok shape := by
  have hread : ((inputParams shape).lookup "shape").bind LayerConfig.ints? = some shape := LayerConfig.ints?_list shape
  rw [LayerConfig.inputShape?, LayerConfig.read, hread]

/-- An input layer resolves to the shape it declares and nothing else. -/
theorem params_of_input (h : resolveParams index record .input = .ok params)
    (hshape : LayerConfig.inputShape? params = .ok shape) : params = inputParams shape := by
  have hcomplete := LayerType.complete_of_resolveParams h
  obtain ⟨v, hv, _, hparams⟩ := resolveParams_eq_ok.mp h
  have hnames : (v.values.map (·.1)).Sublist ["shape"] := Validation.names_of_ofParams hv
  have hvalues : v.values = params := by
    rw [← hparams, Entries.putAll_eq (Validation.nodup_values hv)]
    have hnone : LayerType.input.optionalDefaults = [] := rfl
    simp [hnone, Entries.has]
  rw [hvalues] at hnames
  rcases List.sublist_singleton.mp hnames with hnil | hone
  · have hmissing := hcomplete.settled "shape" rfl
    simp [List.map_eq_nil_iff.mp hnil, Entries.has] at hmissing
  · obtain ⟨⟨name, value⟩, rfl, hname⟩ := List.map_eq_singleton_iff.mp hone
    obtain ⟨spec, hspec, hform⟩ := hcomplete.formed _ List.mem_cons_self
    obtain ⟨rfl, rfl⟩ := Prod.mk.inj (List.mem_singleton.mp hspec)
    obtain ⟨ns, rfl, _⟩ := hform
    have hread : LayerConfig.inputShape? (inputParams ns) = .ok shape := hshape
    rw [inputShape?_inputParams] at hread
    rw [inputParams, Except.ok.inj hread]

/-! ## Designs -/

/-- A design of what a plan says has that plan, whatever its records are called. -/
theorem ofRecords_of_contents (h : ofRecords records = .ok plan)
    (hcontents : records'.map LayerRecord.content = plan.contents) :
    ofRecords records' = .ok (plan.withRecords records'.tail) := by
  obtain ⟨first, tail, rest, rfl, hstarts⟩ := starts_of_ofRecords h
  obtain ⟨params, hparams, hdeclared, hinput, hlayers⟩ := hstarts.ofRecords_eq_ok.mp h
  have htypes := types_of_resolveLayers hlayers
  cases records' with
  | nil => contradiction
  | cons first' tail' =>
      obtain ⟨hhead, htail⟩ := List.cons.inj hcontents
      obtain ⟨htag, hparams'⟩ := Prod.mk.inj hhead
      have hlength : tail'.length = plan.layers.length := by simpa using congrArg List.length htail
      have htags : tail'.map (·.type) = (plan.layers.map (·.type)).map (·.tag) := by
        have hfst := congrArg (List.map Prod.fst) htail
        rw [List.map_map, List.map_map] at hfst
        rw [List.map_map]
        exact hfst
      have hknown : ∀ t ∈ plan.layers.map (·.type), t ≠ .input := by
        rw [htypes]
        intro t ht
        obtain ⟨p, hp, rfl⟩ := List.mem_map.mp ht
        exact ne_input_of_checkRest hstarts.checked p hp
      have hsnd : (tail'.zip (plan.layers.map (·.type))).map (·.2) = rest.map (·.2) := by
        rw [List.map_snd_zip (by simp [hlength]), htypes]
      have hstarts' : Starts first' tail' (tail'.zip (plan.layers.map (·.type))) := by
        refine ⟨htag, fun hnil => hstarts.nonempty ?_, checkRest_of_tags hknown htags 1⟩
        rw [hnil] at hsnd
        exact List.map_eq_nil_iff.mp hsnd.symm
      have hfirst : resolveParams 0 first' .input = .ok params := by
        refine resolveParams_ofNamed hparams ?_
        rw [params_of_input hparams hdeclared]
        exact hparams'
      refine hstarts'.ofRecords_eq_ok.mpr ⟨params, hfirst, hdeclared, ?_, resolveLayers_of_contents hlayers htail⟩
      rw [hsnd]
      exact hinput

/-- Other records change nothing of what a plan says, as long as every layer has one. -/
theorem layers_withRecords {β : Type} (f : ResolvedLayer → β) (hf : ∀ layer record, f { layer with record } = f layer)
    (hlength : records.length = plan.layers.length) : (plan.withRecords records).layers.map f = plan.layers.map f := by
  simp only [withRecords, List.map_zipWith, hf]
  rw [← List.map_uncurry_zip_eq_zipWith]
  have hfst : (plan.layers.zip records).map Prod.fst = plan.layers := List.map_fst_zip (Nat.le_of_eq hlength.symm)
  conv => rhs; rw [← hfst, List.map_map]
  rfl

/-! ## Written out -/

/-- Parameters under names are read as they are. -/
theorem paramsField_ofNamed : LayerRecord.paramsField (.mapping (Mapping.ofNamed params)) = .ok (Mapping.ofNamed params) := by
  have hkeys : (Mapping.ofNamed params).filterMap (fun p => LayerRecord.keyFault? p.1) = [] := by
    rw [Mapping.ofNamed, List.filterMap_map, List.filterMap_eq_nil_iff]
    intro p _
    rfl
  rw [LayerRecord.paramsField, hkeys]

/-- A layer written out as a tag and parameters is read as a record of the two. -/
theorem ofValue_written (index : Option Int) (tag : String) (params : Entries String Value) :
    LayerRecord.ofValue index (.mapping [(.text "type", .text tag), (.text "params", .mapping (Mapping.ofNamed params))]) =
      .ok { type := tag, params := Mapping.ofNamed params } := by
  have hvalue : Mapping.value [(.text "type", .text tag), (.text "params", .mapping (Mapping.ofNamed params))] "params" =
      .mapping (Mapping.ofNamed params) := rfl
  simp only [LayerRecord.ofValue, LayerRecord.ofEntries, hvalue, paramsField_ofNamed]
  rfl

/-- So a list of layers written out is read as records of what was written. -/
theorem ofValues_written (start : Nat) {contents : List (String × Mapping)}
    (hnamed : ∀ p ∈ contents, ∃ params : Entries String Value, p.2 = Mapping.ofNamed params) :
    ∃ records, LayerRecord.ofValues start (contents.map fun (tag, params) =>
        .mapping [(.text "type", .text tag), (.text "params", .mapping params)]) = .ok records ∧
      records.map LayerRecord.content = contents := by
  induction contents generalizing start with
  | nil => exact ⟨[], rfl, rfl⟩
  | cons entry contents ih =>
      obtain ⟨tag, params⟩ := entry
      obtain ⟨⟨params, rfl⟩, hcontents⟩ := List.forall_mem_cons.mp hnamed
      obtain ⟨records, hrecords, hsame⟩ := ih (start + 1) hcontents
      refine ⟨{ type := tag, params := Mapping.ofNamed params } :: records, ?_, ?_⟩
      · rw [List.map_cons, LayerRecord.ofValues, ofValue_written, hrecords]
        rfl
      · rw [List.map_cons, hsame]
        rfl

/-- Resolving is a normal form.  A design of the same types that is given the resolved parameters has the same plan,
whatever ids and names its layers have: the declared shape and the one fed to the first layer are the same, and every
layer has the same parameters and the same shapes.  Written out, the plan is such a design, and to resolve what was
written out gives the same to write. -/
theorem resolved_normal (h : ofRecords records = .ok plan) :
    (∀ records', records'.map LayerRecord.content = plan.contents →
        ofRecords records' = .ok (plan.withRecords records'.tail)) ∧
      ∃ plan', ofValues plan.resolved = .ok plan' ∧ plan'.declared = plan.declared ∧ plan'.input = plan.input ∧
        plan'.layers.map (fun layer => (layer.type, layer.params, layer.config, layer.input, layer.output)) =
          plan.layers.map (fun layer => (layer.type, layer.params, layer.config, layer.input, layer.output)) ∧
        plan'.resolved = plan.resolved := by
  refine ⟨fun records' => ofRecords_of_contents h, ?_⟩
  have hnamed : ∀ p ∈ plan.contents, ∃ params : Entries String Value, p.2 = Mapping.ofNamed params := by
    refine List.forall_mem_cons.mpr ⟨⟨_, rfl⟩, fun p hp => ?_⟩
    obtain ⟨layer, _, rfl⟩ := List.mem_map.mp hp
    exact ⟨_, rfl⟩
  obtain ⟨records', hvalues, hcontents⟩ := ofValues_written 0 hnamed
  have hlength : records'.tail.length = plan.layers.length := by
    have hlong := congrArg List.length hcontents
    simp only [contents, List.length_map, List.length_cons] at hlong
    rw [List.length_tail, hlong, Nat.add_sub_cancel]
  have hagain : ofValues plan.resolved = .ok (plan.withRecords records'.tail) := by
    rw [ofValues, resolved, hvalues]
    exact ofRecords_of_contents h hcontents
  refine ⟨_, hagain, rfl, rfl, layers_withRecords _ (fun _ _ => rfl) hlength, ?_⟩
  have hsame : (plan.withRecords records'.tail).contents = plan.contents := by
    rw [contents, layers_withRecords _ (fun _ _ => rfl) hlength]
    rfl
  rw [resolved, hsame, resolved]

/-- A design as a form sends it: a shape in text, numerals with blanks, a size as a row of doubles, a flag in words. -/
def sent : List LayerRecord := [
  { type := "input", params := [(.text "shape", .text "[8, 8]")] },
  { type := "conv2d", params := [
    (.text "kernelSize", .row [.int 3, .float (.ofDecimal false 30 (-1))]), (.text "filters", .text " 4 ")] },
  { type := "flatten" },
  { type := "dense", params := [(.text "useBias", .text "false"), (.text "units", .float (.ofDecimal false 20 (-1)))] }]

/-- It resolves to integers, flags and defaults, and these resolve to themselves. -/
theorem resolved_sent :
    ∃ plan, ofRecords sent = .ok plan ∧ plan.input = [8, 8, 1] ∧
      plan.contents.getLast? = some ("dense", Mapping.ofNamed [("activation", .text "relu"), ("useBias", .bool false),
        ("kernelInitializer", .text "glorotUniform"), ("units", .int 2)]) ∧
      ∃ plan', ofValues plan.resolved = .ok plan' ∧ plan'.resolved = plan.resolved := by
  obtain ⟨plan, hplan, hinput, hlast⟩ : ∃ plan, ofRecords sent = .ok plan ∧ plan.input = [8, 8, 1] ∧
      plan.contents.getLast? = some ("dense", Mapping.ofNamed [("activation", .text "relu"), ("useBias", .bool false),
        ("kernelInitializer", .text "glorotUniform"), ("units", .int 2)]) := ⟨_, rfl, rfl, rfl⟩
  obtain ⟨plan', hplan', _, _, _, hresolved⟩ := (resolved_normal hplan).2
  exact ⟨plan, hplan, hinput, hlast, plan', hplan', hresolved⟩

end ShapePlan

end LayerStack
