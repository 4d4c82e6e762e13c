import LayerStack.Proofs.Parameter.Normal
import LayerStack.Proofs.Session.Compile
import LayerStack.Proofs.Shape.Append
import LayerStack.Proofs.Shape.Chain
import LayerStack.Training.Head

/-!
# LayerStack.Proofs.Training.Head

A design with a plan gets a classification head, and gets it once.

Whether a head is there is asked of the last layer alone (`EndsIn`), and the units of a layer that was resolved are an
integer, so the question has an answer (`isHead_eq`).  Where there is no head, the layers that are added resolve on
whatever shape the design ends in (`resolveLayers_added`), and what they make is a head.  The main statement is
`ensure_head`.
-/

namespace LayerStack.Head

open ShapePlan

variable {α : Type} {records : List LayerRecord} {record last : LayerRecord} {plan : ShapePlan} {c n : Int} {index : Nat}
  {shape : Shape} {t : LayerType} {params : Entries String Value} {layer : ResolvedLayer}

/-! ## Units -/

/-- A layer of units, which a head may be. -/
def IsDense (t : LayerType) : Prop := t = .dense ∨ t = .output

/-- The last layer is one of units, and their number is read as `c`. -/
def EndsIn (records : List LayerRecord) (c : Int) : Prop :=
  ∃ last t, records.getLast? = some last ∧ LayerType.ofTag? last.type = some t ∧ IsDense t ∧
    Kind.int.coerce (last.params.value "units") = .ok (.int c)

/-- Where a layer of units was resolved its units were given, and are an integer. -/
theorem units_of_resolveParams (ht : IsDense t) (h : resolveParams index record t = .ok params) :
    ∃ n, Kind.int.coerce (record.params.value "units") = .ok (.int n) ∧ params.lookup "units" = some (.int n) := by
  have hmem : ("units", ParameterSpec.count "Number of neurons" true) ∈ t.schema := by
    rcases ht with rfl | rfl <;> exact List.mem_cons_self
  obtain ⟨v, hcoerce, haccepts, hlookup⟩ := lookup_of_required h hmem rfl
  have hform := ParameterSpec.form_of_accepts (ParameterSpec.wellRuled_schema t _ hmem) haccepts
  obtain ⟨n, rfl, _⟩ := hform
  exact ⟨n, hcoerce, hlookup⟩

/-- The units that are found are those of the settings. -/
theorem config_of_units (ht : IsDense t) (hn : params.lookup "units" = some (.int n)) {config : LayerConfig}
    (h : LayerConfig.ofParams t params = .ok config) : ∃ settings : DenseConfig, config = .dense settings ∧ settings.units = n := by
  have hread : LayerConfig.read params "units" LayerConfig.int? = .ok n := by simp [LayerConfig.read, hn, LayerConfig.int?]
  have hdense : LayerConfig.ofParams t params = .dense <$> LayerConfig.dense? params := by
    rcases ht with rfl | rfl <;> rfl
  rw [hdense, map_eq_ok] at h
  obtain ⟨settings, hsettings, rfl⟩ := h
  simp only [LayerConfig.dense?, hread, bind_eq_ok, pure_eq_ok] at hsettings
  obtain ⟨units, hunits, _, _, _, _, _, _, rfl⟩ := hsettings
  exact ⟨_, rfl, (Except.ok.inj hunits).symm⟩

/-- So a layer of units ends in as many as were read. -/
theorem output_of_resolves (ht : IsDense t) (h : Resolves index shape record t layer) :
    ∃ n, Kind.int.coerce (record.params.value "units") = .ok (.int n) ∧ layer.output = [n] := by
  obtain ⟨n, hcoerce, hlookup⟩ := units_of_resolveParams ht h.params
  obtain ⟨settings, hconfig, hunits⟩ := config_of_units ht hlookup h.config
  have hmakes := LayerConfig.makes_of_outputShape h.output
  rw [hconfig] at hmakes
  generalize layer.output = output at hmakes ⊢
  cases hmakes
  exact ⟨n, hcoerce, by rw [hunits]⟩

/-! ## Asking for a head -/

/-- Integers are equal as values where they are equal. -/
theorem same?_int (m n : Int) : (Value.int m).same? (.int n) = some (decide (m = n)) := by
  have hplain : (Value.int m).same? (.int n) = some (some (compare m n) == some .eq) := rfl
  rw [hplain]
  by_cases h : m = n
  · simp [h]
  · have hne : compare m n ≠ .eq := fun heq => h (Int.compare_eq_eq.mp heq)
    simp [h, hne]

/-- Of a layer that was resolved it can be told whether it is a head. -/
theorem isHead_eq (htag : LayerType.ofTag? record.type = some t) (h : Resolves index shape record t layer) :
    ∃ there, isHead (.int c) record = .ok there ∧
      (there = true ↔ IsDense t ∧ Kind.int.coerce (record.params.value "units") = .ok (.int c)) := by
  rw [isHead, htag]
  by_cases ht : IsDense t
  · obtain ⟨n, hcoerce, _⟩ := output_of_resolves ht h
    have hspec : t.schema.lookup "units" = some (.count "Number of neurons" true) := by
      rcases ht with rfl | rfl <;> rfl
    have hkind : (ParameterSpec.count "Number of neurons" true).kind = .int := rfl
    have hsanitize : t.sanitize "units" (record.params.value "units") = .ok (.int n) := by
      simp only [LayerType.sanitize, hspec, hkind, hcoerce]
    refine ⟨decide (n = c), ?_, ?_⟩
    · refine (if_pos ht).trans ?_
      rw [hsanitize]
      simp only [bind, Except.bind, same?_int]
      rfl
    · simp [ht, hcoerce]
  · exact ⟨false, if_neg ht, by simp [ht]⟩

/-- So it can be told of a design with a plan, whose last layer was resolved. -/
theorem isThere_eq (h : ofRecords records = .ok plan) :
    ∃ there, isThere (.int c) records = .ok there ∧ (there = true ↔ EndsIn records c) := by
  obtain ⟨last, t, _, _, layer, hlast, htag, _, hresolves⟩ := exists_last h
  obtain ⟨there, hthere, hiff⟩ := isHead_eq (c := c) htag hresolves
  refine ⟨there, by rw [isThere, hlast]; exact hthere, ?_⟩
  rw [hiff]
  constructor
  · exact fun ⟨ht, hunits⟩ => ⟨last, t, hlast, htag, ht, hunits⟩
  · rintro ⟨last', t', hlast', htag', ht, hunits⟩
    obtain rfl := Option.some.inj (hlast.symm.trans hlast')
    obtain rfl := Option.some.inj (htag.symm.trans htag')
    exact ⟨ht, hunits⟩

/-! ## Adding a head -/

/-- The layers that are added behind samples of a rank. -/
def added (rank : Nat) (classes : Value) : List LayerRecord := (if 1 < rank then [flatten] else []) ++ [output classes]

theorem append_eq (rank : Nat) (classes : Value) : append records rank classes = records ++ added rank classes :=
  List.append_assoc _ _ _

/-- The parameters of a head, with the units put behind the defaults. -/
def headParams (c : Int) : Entries String Value := [
  ("activation", .text "softmax"), ("useBias", .bool true), ("kernelInitializer", .text "glorotUniform"), ("units", .int c)]

/-- A flatten layer takes every shape. -/
theorem resolves_flatten (index : Nat) (shape : Shape) :
    Resolves index shape flatten .flatten ⟨index, flatten, .flatten, [], .flatten, shape, [shape.wordProduct]⟩ :=
  ⟨rfl, rfl, rfl, rfl, rfl, rfl, rfl⟩

/-- The parameters of a head are taken as they are, for as many classes as there may be units. -/
theorem resolveParams_output (hc : Rule.positiveInteger.holds (.int c) = .ok true) (index : Nat) :
    resolveParams index (output (.int c)) .dense = .ok (headParams c) := by
  have hunits : (ParameterSpec.count "Number of neurons" true).Settled (.int c) :=
    ⟨rfl, rfl, by simpa [ParameterSpec.count] using hc⟩
  have hactivation : ParameterSpec.activation.Settled (.text "softmax") :=
    ⟨rfl, rfl, by simp only [ParameterSpec.activation, List.forall_mem_singleton]; decide⟩
  have hbias : (ParameterSpec.flag "Whether to add a learnable bias").Settled (.bool true) :=
    ⟨rfl, rfl, by simp only [ParameterSpec.flag, List.forall_mem_singleton]; rfl⟩
  have hinitializer : ParameterSpec.initializer.Settled (.text "glorotUniform") :=
    ⟨rfl, rfl, by simp only [ParameterSpec.initializer, List.forall_mem_singleton]; decide⟩
  have hsettled : ∀ p ∈ [("units", .int c), ("activation", .text "softmax"), ("useBias", .bool true),
      ("kernelInitializer", Value.text "glorotUniform")],
      ∃ spec, (p.1, spec) ∈ LayerType.dense.schema ∧ spec.Settled p.2 := by
    simp only [List.forall_mem_cons]
    exact ⟨⟨_, .head _, hunits⟩, ⟨_, .tail _ (.head _), hactivation⟩, ⟨_, .tail _ (.tail _ (.head _)), hbias⟩,
      ⟨_, .tail _ (.tail _ (.tail _ (.head _))), hinitializer⟩, by simp⟩
  have hrequired : ∀ p ∈ LayerType.dense.schema, p.2.required →
      Entries.has [("units", .int c), ("activation", .text "softmax"), ("useBias", .bool true),
        ("kernelInitializer", Value.text "glorotUniform")] p.1 := by
    simp only [LayerType.schema, LayerType.denseSchema, List.forall_mem_cons]
    exact ⟨fun _ => rfl, fun _ => rfl, fun _ => rfl, fun _ => rfl, by simp⟩
  exact resolveParams_eq_ok.mpr ⟨_, Validation.ofParams_of_settled hsettled hrequired, rfl, rfl⟩

/-- A head takes a row and makes as many numbers as there are classes. -/
theorem resolves_output (hc : Rule.positiveInteger.holds (.int c) = .ok true) (index : Nat) (n : Int) :
    Resolves index [n] (output (.int c)) .dense
      ⟨index, output (.int c), .dense, headParams c, .dense ⟨c, .softmax, true, .glorotUniform⟩, [n], [c]⟩ :=
  ⟨rfl, rfl, rfl, rfl, resolveParams_output hc index, rfl, rfl⟩

/-- The layers that are added take any shape that has an axis. -/
theorem resolveLayers_added (hc : Rule.positiveInteger.holds (.int c) = .ok true) (index : Nat) (hshape : shape ≠ []) :
    ∃ rest tail, checkRest index (added shape.length (.int c)) = .ok rest ∧ resolveLayers index shape rest = .ok tail := by
  by_cases hrank : 1 < shape.length
  · have hadded : added shape.length (.int c) = [flatten, output (.int c)] := by simp [added, hrank]
    have hhead := resolveLayers_singleton (resolves_output hc (index + 1) shape.wordProduct)
    have hlayers := resolveLayers_cons_eq_ok.mpr ⟨_, _, resolves_flatten index shape, hhead, rfl⟩
    exact ⟨_, _, by rw [hadded]; rfl, hlayers⟩
  · have hadded : added shape.length (.int c) = [output (.int c)] := by simp [added, hrank]
    have hpos := List.length_pos_iff.mpr hshape
    have hrow : shape.length = 1 := by omega
    obtain ⟨n, rfl⟩ := List.length_eq_one_iff.mp hrow
    exact ⟨_, _, by rw [hadded]; rfl, resolveLayers_singleton (resolves_output hc index n)⟩

/-- What was added is a head. -/
theorem endsIn_added (rank : Nat) (c : Int) : EndsIn (records ++ added rank (.int c)) c := by
  refine ⟨output (.int c), .dense, ?_, rfl, .inl rfl, rfl⟩
  rw [added, ← List.append_assoc, List.getLast?_concat]

/-! ## Ending in a head -/

/-- A design with a plan has an input layer and a layer after it. -/
theorem two_le_length (h : ofRecords records = .ok plan) : 2 ≤ records.length := by
  obtain ⟨first, tail, rest, rfl, hstarts⟩ := starts_of_ofRecords h
  have hpos := List.length_pos_iff.mpr hstarts.nonempty
  rw [length_of_checkRest hstarts.checked] at hpos
  rw [List.length_cons]
  omega

/-- A design that ends in a head is left as it is. -/
theorem ensure_of_endsIn (h : ofRecords records = .ok plan) (hends : EndsIn records c) (s : Session α) :
    ensure (.ok records) (.int c) s = (.ok records, s) := by
  have hlong : ¬ records.length < 2 := Nat.not_lt.mpr (two_le_length h)
  obtain ⟨there, hthere, hiff⟩ := isThere_eq (c := c) h
  rw [hiff.mpr hends] at hthere
  simp only [ensure, if_neg hlong, hthere]
  rfl

/-- One that does not is given one; but for the log nothing else changes. -/
theorem ensure_of_not_endsIn (h : ofRecords records = .ok plan) (hends : ¬ EndsIn records c) (s : Session α) :
    ∃ log, ensure (.ok records) (.int c) s = (.ok (records ++ added plan.output.length (.int c)), { s with log }) := by
  have hlong : ¬ records.length < 2 := Nat.not_lt.mpr (two_le_length h)
  obtain ⟨there, hthere, hiff⟩ := isThere_eq (c := c) h
  obtain rfl : there = false := Bool.eq_false_iff.mpr (mt hiff.mp hends)
  have hreport : Session.report (.headAdded (.int c)) s = (.ok (), { s with log := s.log.push (.headAdded (.int c)) }) := by
    have hworded : (LogEntry.headAdded (.int c)).unworded? = none := rfl
    rw [Session.report, hworded]
    cases s.isRead <;> rfl
  obtain ⟨log, hplan⟩ := Session.plan_eq (.ok records) { s with log := s.log.push (.headAdded (.int c)) }
  have hanalysis : Session.analysis (.ok records) = .ok plan := h
  refine ⟨log, ?_⟩
  simp only [ensure, if_neg hlong, hthere]
  rw [add, run_bind, hreport]
  simp only [run_bind, hplan, hanalysis]
  rw [← append_eq]
  rfl

/-- The last shape of a design that ends in a head is the number of classes. -/
theorem getLast?_shapes_of_endsIn (h : ofRecords records = .ok plan) (hends : EndsIn records c) :
    plan.shapes.getLast? = some [c] := by
  obtain ⟨last, t, _, _, layer, hlast, htag, hlayer, hresolves⟩ := exists_last h
  obtain ⟨last', t', hlast', htag', ht, hunits⟩ := hends
  obtain rfl := Option.some.inj (hlast.symm.trans hlast')
  obtain rfl := Option.some.inj (htag.symm.trans htag')
  obtain ⟨n, hcoerce, houtput⟩ := output_of_resolves ht hresolves
  obtain rfl : n = c := Value.int.inj (Except.ok.inj (hcoerce.symm.trans hunits))
  rw [shapes, List.getLast?_cons, List.getLast?_map, hlayer, Option.map_some, houtput]
  rfl

/-- Layers that are in a row from a shape with an axis end in one. -/
theorem finalShape_ne_nil {layers : List ResolvedLayer} (h : Chained index shape layers) (hshape : shape ≠ []) :
    finalShape shape layers ≠ [] := by
  induction h with
  | nil => exact hshape
  | cons _ hsound _ ih =>
      rw [finalShape_cons]
      exact ih (LayerConfig.ne_nil_of_makes hshape hsound.makes)

theorem output_ne_nil (h : ofRecords records = .ok plan) : plan.output ≠ [] := by
  obtain ⟨hopens, hchained⟩ := chained_of_ofRecords h
  exact finalShape_ne_nil hchained hopens.input_ne_nil

/-- A design with a plan gets a classification head.  For every number of classes that units may be, the design comes
back with nothing changed about it, and with layers behind it unless its last layer is a dense or output layer whose
units are read as that number: a flatten layer where it ends in more than one axis, and a dense layer.  What comes back
has a plan that begins with the shapes there were and ends in one number for every class, and to ask for a head of it
again gives it back. -/
theorem ensure_head (h : ofRecords records = .ok plan) (hc : Rule.positiveInteger.holds (.int c) = .ok true)
    (s : Session α) :
    ∃ added log plan', ensure (.ok records) (.int c) s = (.ok (records ++ added), { s with log }) ∧
      (EndsIn records c → added = []) ∧
      (¬ EndsIn records c → added.length = if 1 < plan.output.length then 2 else 1) ∧
      ofRecords (records ++ added) = .ok plan' ∧ plan'.shapes.take records.length = plan.shapes ∧
      plan'.shapes.getLast? = some [c] ∧
      ∀ s' : Session α, ensure (.ok (records ++ added)) (.int c) s' = (.ok (records ++ added), s') := by
  by_cases hends : EndsIn records c
  · refine ⟨[], s.log, plan, ?_, fun _ => rfl, fun hnot => absurd hends hnot, ?_, ?_, ?_, ?_⟩
    · rw [List.append_nil]
      exact ensure_of_endsIn h hends s
    · rw [List.append_nil]
      exact h
    · rw [← length_shapes h, List.take_length]
    · exact getLast?_shapes_of_endsIn h hends
    · rw [List.append_nil]
      exact ensure_of_endsIn h hends
  · obtain ⟨log, hensure⟩ := ensure_of_not_endsIn h hends s
    obtain ⟨rest, tail, hrest, htail⟩ := resolveLayers_added hc records.length (output_ne_nil h)
    have hplan := ofRecords_append h hrest htail
    have hends' : EndsIn (records ++ added plan.output.length (.int c)) c := endsIn_added _ c
    refine ⟨_, log, _, hensure, fun hhead => absurd hhead hends, fun _ => ?_, hplan, ?_, ?_, ensure_of_endsIn hplan hends'⟩
    · by_cases hrank : 1 < plan.output.length <;> simp [added, hrank]
    · rw [shapes_append, ← length_shapes h, List.take_left]
    · exact getLast?_shapes_of_endsIn hplan hends'

/-- An image under one convolution. -/
def headless : List LayerRecord := [
  { id := some "a", type := "input", params := [(.text "shape", .list [.int 8, .int 8])] },
  { type := "conv2d", params := [(.text "filters", .int 2), (.text "kernelSize", .int 3)] }]

/-- It is flattened for four classes, and the shapes it had stay. -/
theorem ensure_headless :
    (∃ plan, ofRecords headless = .ok plan ∧ plan.shapes = [[8, 8], [8, 8, 2]]) ∧
      Rule.positiveInteger.holds (.int 4) = .ok true ∧
      ∃ added log plan', ensure (.ok headless) (.int 4) (Session.start 7 true : Session Mixed) =
          (.ok (headless ++ added), { (Session.start 7 true : Session Mixed) with log }) ∧
        added.length = 2 ∧ ofRecords (headless ++ added) = .ok plan' ∧
        plan'.shapes.take 2 = [[8, 8], [8, 8, 2]] ∧ plan'.shapes.getLast? = some [4] := by
  obtain ⟨plan, hplan, hshapes, houtput⟩ :
      ∃ plan, ofRecords headless = .ok plan ∧ plan.shapes = [[8, 8], [8, 8, 2]] ∧ plan.output = [8, 8, 2] := ⟨_, rfl, rfl, rfl⟩
  have hc : Rule.positiveInteger.holds (.int 4) = .ok true := rfl
  have hends : ¬ EndsIn headless 4 := by
    rintro ⟨last, t, hlast, htag, ht, _⟩
    obtain rfl := Option.some.inj hlast
    obtain rfl := Option.some.inj htag
    simp [IsDense] at ht
  obtain ⟨added, log, plan', hensure, _, hlength, hplan', htake, hlast, _⟩ :=
    ensure_head hplan hc (Session.start 7 true : Session Mixed)
  have htwo : added.length = 2 := by
    rw [hlength hends, houtput]
    rfl
  exact ⟨⟨plan, hplan, hshapes⟩, hc, added, log, plan', hensure, htwo, hplan', htake.trans hshapes, hlast⟩

end LayerStack.Head
