import LayerStack.Proofs.Parameter.Fault
import LayerStack.Proofs.Shape.Chain
import LayerStack.Proofs.Shape.Prefix

/-!
# LayerStack.Proofs.Shape.Fault

What keeps the analysis of a design from an outcome.

An analysis is meant to come to a plan or to blame the design, and nothing else.  It does, but for parameters whose check
faults: where the input layer, or a layer that all layers before it lead up to, has parameters that fault
(`ShapePlan.Faults`), the analysis comes to neither.  Nothing past the check of parameters faults: what passed is complete
and can be read.  The main statement is `plan_or_blame_iff`.
-/

namespace LayerStack

namespace ShapePlan

variable {index : Nat} {shape : Shape} {record first : LayerRecord} {t : LayerType} {layers : List ResolvedLayer}
  {rest : List (LayerRecord × LayerType)} {records : List LayerRecord} {e : AnalysisError} {f : AnalysisFault}

/-! ## One layer -/

theorem resolveParams_eq_fault (index : Nat) :
    resolveParams index record t = .error (.fault f) ↔ Validation.Faults t.schema record.params f := by
  rw [← Validation.ofParams_eq_error]
  simp only [resolveParams, bind_eq_error, Analysis.ofFault_eq_fault]
  constructor
  · rintro (h | ⟨v, _, h⟩)
    · exact h
    · split at h
      · exact absurd h pure_ne_error
      · cases h
  · exact .inl

/-- A layer faults by its parameters alone: those that were checked and completed can all be read. -/
theorem resolveLayer_eq_fault (ht : t ≠ .input) :
    resolveLayer index shape record t = .error (.fault f) ↔ Validation.Faults t.schema record.params f := by
  rw [← resolveParams_eq_fault index]
  simp only [resolveLayer, bind_eq_error]
  constructor
  · rintro (h | ⟨params, hparams, h⟩)
    · exact h
    · obtain ⟨config, hconfig, _⟩ := LayerConfig.ofParams_of_complete ht (LayerType.complete_of_resolveParams hparams)
      rw [hconfig] at h
      rcases h with h | ⟨config', _, h⟩
      · cases h
      · split at h
        · cases h
        · exact absurd h pure_ne_error
  · exact .inl

/-- Layers fail with the first of them that does. -/
theorem resolveLayers_of_error {n : Nat} (hbefore : resolveLayers index shape (rest.take n) = .ok layers)
    (hplace : rest[n]? = some (record, t)) (h : ∀ input, resolveLayer (index + n) input record t = .error e) :
    resolveLayers index shape rest = .error e := by
  induction rest generalizing index shape layers n with
  | nil => simp at hplace
  | cons entry rest ih =>
      cases n with
      | zero =>
          obtain rfl := Option.some.inj hplace
          exact resolveLayers_cons_eq_error.mpr (.inl (h shape))
      | succ n =>
          obtain ⟨layer, tail, hlayer, htail, rfl⟩ := resolveLayers_cons_eq_ok.mp hbefore
          refine resolveLayers_cons_eq_error.mpr (.inr ⟨layer, hlayer, ih htail hplace fun input => ?_⟩)
          rw [Nat.add_right_comm]
          exact h input

/-! ## A design -/

/-- A design faults with its input layer, or with the first layer that cannot be resolved. -/
inductive Faults : List LayerRecord → AnalysisFault → Prop
  | input {first : LayerRecord} {records : List LayerRecord} {rest : List (LayerRecord × LayerType)} {f : AnalysisFault}
    (hstarts : Starts first records rest) (h : Validation.Faults LayerType.input.schema first.params f) :
    Faults (first :: records) f
  | layer {first : LayerRecord} {records : List LayerRecord} {rest : List (LayerRecord × LayerType)} {o : Outline}
    {n : Nat} {layers : List ResolvedLayer} {record : LayerRecord} {t : LayerType} {f : AnalysisFault}
    (hstarts : Starts first records rest) (houtline : outline (first :: records) = .ok o)
    (hbefore : resolveLayers 1 o.input (rest.take n) = .ok layers) (hplace : rest[n]? = some (record, t))
    (h : Validation.Faults t.schema record.params f) : Faults (first :: records) f

/-- The outline of a design faults with the parameters of its input layer. -/
theorem Starts.outline_eq_fault (h : Starts first records rest) :
    outline (first :: records) = .error (.fault f) ↔ Validation.Faults LayerType.input.schema first.params f := by
  rw [h.outline_eq, ← resolveParams_eq_fault 0]
  simp only [bind_eq_error, pure_ne_error, and_false, exists_false, or_false, Analysis.ofFault_eq_fault]
  constructor
  · rintro (h | ⟨params, hparams, h⟩)
    · exact h
    · obtain ⟨declared, hdeclared, _⟩ :=
        LayerConfig.inputShape?_of_complete (LayerType.complete_of_resolveParams hparams)
      rw [hdeclared] at h
      cases h
  · exact .inl

/-- The analysis of a design is left without an outcome exactly where the design faults. -/
theorem ofRecords_eq_fault : ofRecords records = .error (.fault f) ↔ Faults records f := by
  constructor
  · intro h
    have hstructure : ∃ first rest, checkStructure records = .ok (first, rest) := by
      cases hstructure : checkStructure records with
      | ok found => exact ⟨found.1, found.2, rfl⟩
      | error d =>
          rw [ofRecords, outline, hstructure] at h
          cases h
    obtain ⟨first, rest, hstructure⟩ := hstructure
    obtain ⟨tail, rfl, hstarts⟩ := starts_of_checkStructure hstructure
    rcases hstarts.ofRecords_eq_error h with houtline | ⟨o, n, houtline, hstops⟩
    · exact .input hstarts (hstarts.outline_eq_fault.mp houtline)
    · obtain ⟨layers, hbefore⟩ := hstops.before n (Nat.le_refl n)
      obtain ⟨record, t, input, hplace, hlayer⟩ := hstops.here
      have ht : t ≠ .input := ne_input_of_checkStructure hstructure _ (List.mem_of_getElem? hplace)
      exact .layer hstarts houtline hbefore hplace ((resolveLayer_eq_fault ht).mp hlayer)
  · intro h
    cases h with
    | input hstarts h => rw [ofRecords, hstarts.outline_eq_fault.mpr h]; rfl
    | @layer first tail rest o n layers record t f hstarts houtline hbefore hplace h =>
        have ht : t ≠ .input := ne_input_of_checkRest hstarts.checked _ (List.mem_of_getElem? hplace)
        have hlayers : resolveLayers 1 o.input o.rest = .error (.fault f) := by
          rw [hstarts.rest_eq houtline]
          exact resolveLayers_of_error hbefore hplace fun input => (resolveLayer_eq_fault ht).mpr h
        exact bind_eq_error.mpr (.inr ⟨o, houtline, bind_eq_error.mpr (.inl hlayers)⟩)

/-- An analysis never lacks a parameter. -/
theorem ofRecords_ne_incomplete {name : String} : ofRecords records ≠ .error (.fault (.incomplete name)) := by
  rw [Ne, ofRecords_eq_fault]
  intro h
  cases h with
  | input _ h | layer _ _ _ _ h => exact Validation.ne_incomplete (Validation.ofParams_eq_error.mpr h)

end ShapePlan

/-! ## Documents -/

/-- The values that a document can hold. -/
inductive Value.IsDocument : Value → Prop
  | absent : IsDocument .absent
  | bool (b : Bool) : IsDocument (.bool b)
  | int (n : Int) : IsDocument (.int n)
  | float (x : Binary64) : IsDocument (.float x)
  | text (s : String) : IsDocument (.text s)
  | list {items : List Value} (h : ∀ v ∈ items, IsDocument v) : IsDocument (.list items)
  | mapping {entries : Mapping} (hkeys : ∀ p ∈ entries, ∃ s, p.1 = .text s) (h : ∀ p ∈ entries, IsDocument p.2) :
    IsDocument (.mapping entries)

namespace Mapping

variable {m : Mapping} {key v : Value}

/-- What is looked up is under some key; keys may be equal without being the same. -/
theorem exists_mem_of_lookup (h : m.lookup key = some v) : ∃ k, (k, v) ∈ m := by
  induction m with
  | nil => contradiction
  | cons p m ih =>
      rw [List.lookup_cons] at h
      split at h
      · obtain rfl := Option.some.inj h
        exact ⟨p.1, List.mem_cons_self⟩
      · obtain ⟨k, hk⟩ := ih h
        exact ⟨k, List.mem_cons_of_mem _ hk⟩

/-- A text that is under a name is the value of an entry. -/
theorem exists_mem_of_value {name s : String} (h : m.value name = .text s) : ∃ p ∈ m, p.2 = .text s := by
  rw [value, find?] at h
  cases hlookup : m.lookup (.text name) with
  | none =>
      rw [hlookup] at h
      contradiction
  | some v =>
      obtain ⟨k, hk⟩ := exists_mem_of_lookup hlookup
      rw [hlookup] at h
      exact ⟨(k, v), hk, h⟩

/-- What is under a name in a document is a document. -/
theorem isDocument_value (h : ∀ p ∈ m, p.2.IsDocument) (name : String) : (m.value name).IsDocument := by
  rw [value, find?]
  cases hlookup : m.lookup (.text name) with
  | none => exact .absent
  | some v =>
      obtain ⟨k, hk⟩ := exists_mem_of_lookup hlookup
      exact h _ hk

end Mapping

namespace LayerRecord

variable {record : LayerRecord} {records : List LayerRecord} {index : Option Int} {v : Value} {vs : List Value}

/-- The parameters of a record that is read from a document are documents. -/
theorem isDocument_of_ofValue (hv : v.IsDocument) (h : ofValue index v = .ok record) :
    ∀ p ∈ record.params, p.2.IsDocument := by
  cases hv with
  | @mapping entries hkeys hentries =>
      have hparams := Mapping.isDocument_value hentries "params"
      simp only [ofValue, ofEntries] at h
      split at h
      · next hfield =>
          obtain rfl := Except.ok.inj h
          unfold paramsField at hfield
          split at hfield
          · rw [← Except.ok.inj hfield]
            nofun
          · next hmapping =>
              split at hfield
              · rw [← Except.ok.inj hfield]
                rw [hmapping] at hparams
                cases hparams with
                | mapping _ hparams => exact hparams
              · contradiction
          · contradiction
      · contradiction
  | absent | bool b | int n | float x | text s | list hitems => contradiction

theorem isDocument_of_ofValues {start : Nat} (hvs : ∀ v ∈ vs, v.IsDocument) (h : ofValues start vs = .ok records) :
    ∀ record ∈ records, ∀ p ∈ record.params, p.2.IsDocument := by
  induction vs generalizing start records with
  | nil =>
      obtain rfl := Except.ok.inj h
      simp
  | cons v vs ih =>
      obtain ⟨hv, hvs⟩ := List.forall_mem_cons.mp hvs
      simp only [ofValues, bind_eq_ok, pure_eq_ok] at h
      obtain ⟨record, hrecord, rest, hrest, rfl⟩ := h
      exact List.forall_mem_cons.mpr ⟨isDocument_of_ofValue hv hrecord, ih hvs hrest⟩

end LayerRecord

/-! ## What an analysis comes to -/

/-- Every error of a design is of the class of compile errors or of one below it. -/
theorem DesignError.compile_mem_ancestry (d : DesignError) : ErrorClass.compile ∈ d.errorClass.ancestry := by
  have hclass : d.errorClass ∈ [ErrorClass.compile, .configuration, .unknownLayerType, .parameter, .shape] := by
    cases d with
    | general configuration => cases configuration <;> simp [errorClass]
    | notRecord | malformed | noLayers | firstNotInput | secondInput | inputOnly | noHead | unknownType | parameters
    | shape => simp [errorClass]
  have hbelow : ∀ c ∈ [ErrorClass.compile, .configuration, .unknownLayerType, .parameter, .shape],
      ErrorClass.compile ∈ c.ancestry := by decide
  exact hbelow _ hclass

namespace ShapePlan

variable {layers : List Value} {records : List LayerRecord} {f : AnalysisFault}

theorem ofValues_eq_fault :
    ofValues layers = .error (.fault f) ↔ ∃ records, LayerRecord.ofValues 0 layers = .ok records ∧ Faults records f := by
  simp only [ofValues, bind_eq_error, Analysis.ofDesign_ne_fault, false_or, Analysis.ofDesign_eq_ok, ofRecords_eq_fault]

/-- Some parameter is a text with a longer run of digits than a number may have. -/
def HasLongText (records : List LayerRecord) : Prop :=
  ∃ record ∈ records, ∃ p ∈ record.params, ∃ s, p.2 = .text s ∧ Value.Reader.HasLongRun s.toList

/-- The rows of a document are lists, so none of them is uneven. -/
theorem fault_of_document (hrecords : ∀ record ∈ records, ∀ p ∈ record.params, p.2.IsDocument) (h : Faults records f) :
    f = .tooLarge ∨ f = .digits ∧ HasLongText records := by
  have hparams {record : LayerRecord} {schema : Schema} (hrecord : record ∈ records)
      (h : Validation.Faults schema record.params f) : f = .tooLarge ∨ f = .digits ∧ HasLongText records := by
    obtain ⟨_, name, spec, _, _, hfaults, _⟩ := h
    have hraw := Mapping.isDocument_value (hrecords record hrecord) name
    cases hfaults with
    | uneven _ hrows _ => rcases hrows with hrows | hrows <;> rw [hrows] at hraw <;> contradiction
    | digits hkind htext hopens hlist =>
        obtain ⟨s, hs, hrun⟩ := ParameterSpec.longRun_of_faults (.digits hkind htext hopens hlist)
        obtain ⟨p, hp, hvalue⟩ := Mapping.exists_mem_of_value hs
        exact .inr ⟨rfl, record, hrecord, p, hp, s, hvalue, hrun⟩
    | tooLarge => exact .inl rfl
  cases h with
  | input hstarts h => exact hparams List.mem_cons_self h
  | layer hstarts houtline hbefore hplace h =>
      obtain ⟨hrecord, _⟩ := record_of_checkRest hstarts.checked hplace
      exact hparams (List.mem_cons_of_mem _ (List.mem_of_getElem? hrecord)) h

/-- A design as a document holds it, with a vocabulary of a size past the doubles. -/
def oversized : List Value := [
  .mapping [(.text "type", .text "input"), (.text "params", .mapping [(.text "shape", .list [.int 4])])],
  .mapping [(.text "type", .text "embedding"), (.text "params", .mapping [
    (.text "vocabSize", .int (10 ^ 400)), (.text "embeddingDim", .int 8), (.text "maxLength", .int 10)])]]

theorem ofValues_oversized : ofValues oversized = .error (.fault .tooLarge) := by
  have hlarge : Binary64.overflow ≤ (10 ^ 400 : Int).natAbs := by
    rw [Int.natAbs_pow]
    exact Binary64.overflow_le.trans (by decide +kernel)
  have hcount : Value.Stumbles (Kind.int.counted (.int (10 ^ 400))) := .here ⟨_, rfl, hlarge⟩
  refine ofValues_eq_fault.mpr ⟨_, rfl, .layer (n := 0) ⟨rfl, List.cons_ne_nil _ _, rfl⟩ rfl rfl rfl ?_⟩
  exact ⟨[], "vocabSize", _, _, rfl, .tooLarge rfl hcount, nofun⟩

end ShapePlan

end LayerStack
