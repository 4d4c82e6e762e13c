import LayerStack.Proofs.Shape.Prefix

/-!
# LayerStack.Proofs.Shape.Append

A design that goes on where another one ends.

The layers that are put behind a design are resolved on the shape it ends in, and nothing before them is seen in
another light (`ofRecords_append`).  What looks ahead is the channel axis, and it looks no further than to the first
layer after the input, which every design with a plan has.
-/

namespace LayerStack.ShapePlan

variable {index start : Nat} {shape : Shape} {layers tail : List ResolvedLayer} {rest more : List (LayerRecord × LayerType)}
  {first : LayerRecord} {records added : List LayerRecord} {plan : ShapePlan}

/-- The shape that layers come to from a shape. -/
def finalShape (shape : Shape) (layers : List ResolvedLayer) : Shape := ((layers.getLast?).map (·.output)).getD shape

theorem finalShape_cons {layer : ResolvedLayer} : finalShape shape (layer :: layers) = finalShape layer.output layers := by
  rw [finalShape, List.getLast?_cons, finalShape]
  cases layers.getLast? <;> rfl

theorem resolveLayers_singleton {record : LayerRecord} {t : LayerType} {layer : ResolvedLayer}
    (h : Resolves index shape record t layer) : resolveLayers index shape [(record, t)] = .ok [layer] :=
  resolveLayers_cons_eq_ok.mpr ⟨layer, [], h, rfl, rfl⟩

/-- More layers are resolved on the shape that those before them come to. -/
theorem resolveLayers_append (h : resolveLayers index shape rest = .ok layers)
    (hmore : resolveLayers (index + rest.length) (finalShape shape layers) more = .ok tail) :
    resolveLayers index shape (rest ++ more) = .ok (layers ++ tail) := by
  induction rest generalizing index shape layers with
  | nil =>
      obtain rfl := Except.ok.inj h
      exact hmore
  | cons entry rest ih =>
      obtain ⟨layer, layers, hlayer, hlayers, rfl⟩ := resolveLayers_cons_eq_ok.mp h
      rw [finalShape_cons, List.length_cons, ← Nat.add_assoc, Nat.add_right_comm] at hmore
      exact resolveLayers_cons_eq_ok.mpr ⟨layer, layers ++ tail, hlayer, ih hlayers hmore, rfl⟩

theorem length_of_resolveLayers (h : resolveLayers index shape rest = .ok layers) : layers.length = rest.length := by
  induction rest generalizing index shape layers with
  | nil =>
      obtain rfl := Except.ok.inj h
      rfl
  | cons entry rest ih =>
      obtain ⟨layer, layers, _, hlayers, rfl⟩ := resolveLayers_cons_eq_ok.mp h
      rw [List.length_cons, List.length_cons, ih hlayers]

theorem checkRest_append (h : checkRest start records = .ok rest)
    (hadded : checkRest (start + records.length) added = .ok more) :
    checkRest start (records ++ added) = .ok (rest ++ more) := by
  induction records generalizing start rest with
  | nil =>
      obtain rfl := Except.ok.inj h
      exact hadded
  | cons record records ih =>
      obtain ⟨t, tail, htag, ht, htail, rfl⟩ := checkRest_cons.mp h
      rw [List.length_cons, ← Nat.add_assoc, Nat.add_right_comm] at hadded
      exact checkRest_cons.mpr ⟨t, tail ++ more, htag, ht, ih htail hadded, rfl⟩

theorem length_of_checkRest (h : checkRest start records = .ok rest) : rest.length = records.length := by
  induction records generalizing start rest with
  | nil =>
      obtain rfl := Except.ok.inj h
      rfl
  | cons record records ih =>
      obtain ⟨t, tail, _, _, htail, rfl⟩ := checkRest_cons.mp h
      rw [List.length_cons, List.length_cons, ih htail]

/-- Every record of a design with a plan has its shape. -/
theorem length_shapes (h : ofRecords records = .ok plan) : plan.shapes.length = records.length := by
  obtain ⟨first, tail, rest, rfl, hstarts⟩ := starts_of_ofRecords h
  obtain ⟨_, _, _, _, hlayers⟩ := hstarts.ofRecords_eq_ok.mp h
  rw [shapes, List.length_cons, List.length_map, length_of_resolveLayers hlayers, length_of_checkRest hstarts.checked,
    List.length_cons]

/-- The last record of a design with a plan is the one of its last layer. -/
theorem exists_last (h : ofRecords records = .ok plan) :
    ∃ last t index input layer, records.getLast? = some last ∧ LayerType.ofTag? last.type = some t ∧
      plan.layers.getLast? = some layer ∧ Resolves index input last t layer := by
  obtain ⟨first, tail, rest, rfl, hstarts⟩ := starts_of_ofRecords h
  obtain ⟨_, _, _, _, hlayers⟩ := hstarts.ofRecords_eq_ok.mp h
  obtain ⟨⟨last, t⟩, hlast⟩ := Option.isSome_iff_exists.mp (List.getLast?_isSome.mpr hstarts.nonempty)
  rw [List.getLast?_eq_getElem?] at hlast
  obtain ⟨layer, input, hlayer, hresolves⟩ := resolves_of_resolveLayers hlayers hlast
  obtain ⟨hrecord, htag⟩ := record_of_checkRest hstarts.checked hlast
  rw [length_of_checkRest hstarts.checked] at hrecord
  rw [← length_of_resolveLayers hlayers] at hlayer
  refine ⟨last, t, _, input, layer, ?_, htag, ?_, hresolves⟩
  · have htail : tail.getLast? = some last := by rw [List.getLast?_eq_getElem?, hrecord]
    rw [List.getLast?_cons, htail]
    rfl
  · rw [List.getLast?_eq_getElem?, hlayer]

/-- A design that goes on has the plan it had, and the layers that were added after those it had. -/
theorem ofRecords_append (h : ofRecords records = .ok plan) (hadded : checkRest records.length added = .ok more)
    (hmore : resolveLayers records.length plan.output more = .ok tail) :
    ofRecords (records ++ added) = .ok { plan with layers := plan.layers ++ tail } := by
  obtain ⟨first, records, rest, rfl, hstarts⟩ := starts_of_ofRecords h
  obtain ⟨params, hparams, hdeclared, hinput, hlayers⟩ := hstarts.ofRecords_eq_ok.mp h
  have hlength : (first :: records).length = 1 + rest.length := by
    rw [length_of_checkRest hstarts.checked, List.length_cons, Nat.add_comm]
  have hstarts' : Starts first (records ++ added) (rest ++ more) := by
    refine ⟨hstarts.input, List.append_ne_nil_of_left_ne_nil hstarts.nonempty _, checkRest_append hstarts.checked ?_⟩
    rw [Nat.add_comm]
    exact hadded
  have hopening : opening ((rest ++ more).map (·.2)) plan.declared = opening (rest.map (·.2)) plan.declared := by
    cases hrest : rest with
    | nil => exact absurd hrest hstarts.nonempty
    | cons entry rest => rfl
  refine hstarts'.ofRecords_eq_ok.mpr ⟨params, hparams, hdeclared, hinput.trans hopening.symm, ?_⟩
  rw [hlength] at hmore
  exact resolveLayers_append hlayers hmore

/-- The shapes it had come first. -/
theorem shapes_append (tail : List ResolvedLayer) :
    ({ plan with layers := plan.layers ++ tail } : ShapePlan).shapes = plan.shapes ++ tail.map (·.output) := by
  simp [shapes]

end LayerStack.ShapePlan
