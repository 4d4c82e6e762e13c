import LayerStack.Proofs.Parameter.Declared
import LayerStack.Proofs.Shape.Step

/-!
# LayerStack.Proofs.Parameter.Normal

Parameters once checked and completed come through again as they are.

`ParameterSpec.Settled` says of a value that coercion leaves it alone and that it breaks no rule.  Accepted values are
settled (`settled_of_accepts`), since their form is one that coercion does not touch, and so are the defaults of the
palette (`settled_of_default`).  Settled values pass their check untouched, in the order of the schema, and to put them
over the defaults they were completed with changes nothing: the main statement is `resolveParams_ofNamed`.
-/

namespace LayerStack

/-! ## Settled values -/

namespace ParameterSpec

/-- A value that its parameter takes as it is. -/
structure Settled (spec : ParameterSpec) (v : Value) : Prop where
  present : v.isMissing = false
  coerced : spec.kind.coercePresent v = .ok v
  obeys : ∀ rule ∈ spec.rules, rule.holds v = .ok true

/-- A choice that refuses the empty text. -/
def Worded (spec : ParameterSpec) : Prop :=
  spec.kind = .choice → ∃ rule ∈ spec.rules, rule.holds (.text "") ≠ .ok true

variable {spec : ParameterSpec} {v : Value}

/-- In every schema the choices are of words. -/
theorem worded_schema (t : LayerType) : ∀ p ∈ t.schema, p.2.Worded := by
  have hactivation : activation.Worded := fun _ => ⟨_, List.mem_singleton_self _, by decide⟩
  have hinitializer : initializer.Worded := fun _ => ⟨_, List.mem_singleton_self _, by decide⟩
  have hpadding : padding.Worded := fun _ => ⟨_, List.mem_singleton_self _, by decide⟩
  have hencoding (help : String) : Worded { kind := .choice, rules := [.encodingType], help } :=
    fun _ => ⟨_, List.mem_singleton_self _, by decide⟩
  have hcounted {kind : Kind} {rules : List Rule} {required : Bool} {help : String} (hkind : kind ≠ .choice) :
      Worded { kind, rules, required, help } := fun h => absurd h hkind
  cases t <;>
    simp [LayerType.schema, LayerType.denseSchema, count, bounded, flag, size, ParameterSpec.dropout, *]

/-- Normalizing leaves integers alone, one by one and in lists. -/
theorem normalizeItems_ints (ns : List Int) : Kind.normalizeItems (.list (ns.map .int)) = .list (ns.map .int) := by
  rw [Kind.normalizeItems, List.map_map]
  rfl

/-- A value of the form of its kind is what coercion makes of it. -/
theorem coercePresent_of_form (h : spec.Form v) : spec.kind.coercePresent v = .ok v := by
  unfold Form at h
  cases hkind : spec.kind with
  | int =>
      simp only [hkind] at h
      obtain ⟨n, rfl, _⟩ := h
      rfl
  | number =>
      simp only [hkind] at h
      obtain ⟨x, hx, _⟩ := h
      cases v with
      | int n => rfl
      | float x => rfl
      | absent | bool b | text s | list items | row items | mapping entries | scalar s | array items =>
          simp [LayerConfig.number?] at hx
  | bool =>
      simp only [hkind] at h
      obtain ⟨b, rfl⟩ := h
      rfl
  | choice => rfl
  | shape =>
      simp only [hkind] at h
      obtain ⟨ns, rfl, _⟩ := h
      exact congrArg Except.ok (normalizeItems_ints ns)
  | size =>
      simp only [hkind] at h
      rcases h with ⟨n, rfl, _⟩ | ⟨a, b, rfl, _⟩
      · rfl
      · exact congrArg Except.ok (normalizeItems_ints [a, b])

/-- Of the forms only a text can count as missing. -/
theorem isMissing_of_form (h : spec.Form v) (hv : v ≠ .text "") : v.isMissing = false := by
  cases v with
  | absent =>
      unfold Form at h
      cases hkind : spec.kind <;> simp [hkind, LayerConfig.number?] at h
  | text s => simpa [Value.isMissing] using hv
  | bool b | int n | float x | list items | row items | mapping entries | scalar s | array items => rfl

/-- An accepted value is settled. -/
theorem settled_of_accepts (hruled : spec.WellRuled) (hworded : spec.Worded) (h : spec.Accepts v) : spec.Settled v := by
  have hform := form_of_accepts hruled h
  refine ⟨isMissing_of_form hform ?_, coercePresent_of_form hform, h.obeys⟩
  rintro rfl
  have hkind : spec.kind = .choice := by
    unfold Form at hform
    cases hkind : spec.kind <;> simp [hkind, LayerConfig.number?] at hform
    rfl
  obtain ⟨rule, hrule, hrefused⟩ := hworded hkind
  exact hrefused (h.obeys rule hrule)

/-- Every default of a parameter that may be left out obeys the rules of the parameter. -/
theorem default_obeys (t : LayerType) :
    ∀ p ∈ t.optionalDefaults, p.2.isMissing = false ∧ ∀ entry ∈ t.schema, entry.1 = p.1 →
      ∀ rule ∈ entry.2.rules, (rule.holds p.2).toOption = some true := by
  cases t <;> decide +kernel

/-- So it is settled. -/
theorem settled_of_default {t : LayerType} {p : String × Value} (h : p ∈ t.optionalDefaults) :
    ∃ spec, (p.1, spec) ∈ t.schema ∧ spec.Settled p.2 := by
  obtain ⟨spec, hmem, hform⟩ := form_of_default h
  obtain ⟨hpresent, hrules⟩ := default_obeys t p h
  have hobeys : ∀ rule ∈ spec.rules, rule.holds p.2 = .ok true := fun rule hrule =>
    toOption_eq_some.mp (hrules _ hmem rfl rule hrule)
  exact ⟨spec, hmem, hpresent, coercePresent_of_form hform, hobeys⟩

end ParameterSpec

/-! ## Named values -/

namespace Mapping

variable {entries : Entries String Value} {name : String}

/-- Among values under names a name finds its own. -/
theorem find?_ofNamed : (ofNamed entries).find? name = entries.lookup name :=
  Entries.lookup_map_keys (f := Value.text) (fun _ _ => rfl) entries

theorem value_ofNamed : (ofNamed entries).value name = (entries.lookup name).getD .absent := by
  rw [value, find?_ofNamed]

end Mapping

/-! ## Checking again -/

namespace Validation

variable {t : LayerType} {params : Entries String Value}

/-- A settled value passes its check as it is. -/
theorem parameter_of_settled {name : String} {spec : ParameterSpec} {v : Value} (h : spec.Settled v) :
    parameter name spec v = .ok ⟨[], [(name, v)]⟩ := by
  have hcoerce : spec.kind.coerce v = .ok v := by simp [Kind.coerce, h.present, h.coerced]
  simp only [parameter, h.present, hcoerce, Rule.broken_eq_nil_iff.mpr h.obeys]
  rfl

/-- Settled values pass as they are, in the order of the schema, if those that it requires are among them. -/
theorem parameters_of_settled {schema : Schema}
    (hsettled : ∀ p ∈ schema, ∀ v, params.lookup p.1 = some v → p.2.Settled v)
    (hrequired : ∀ p ∈ schema, p.2.required → params.has p.1) :
    parameters schema (.ofNamed params) = .ok ⟨[], params.along (schema.map (·.1))⟩ := by
  induction schema with
  | nil => rfl
  | cons entry schema ih =>
      obtain ⟨name, spec⟩ := entry
      have hrest := ih (fun p hp => hsettled p (List.mem_cons_of_mem _ hp))
        fun p hp => hrequired p (List.mem_cons_of_mem _ hp)
      have hfirst : parameter name spec ((Mapping.ofNamed params).value name) =
          .ok ⟨[], ((params.lookup name).map (name, ·)).toList⟩ := by
        rw [Mapping.value_ofNamed]
        cases hv : params.lookup name with
        | some v => exact parameter_of_settled (hsettled _ List.mem_cons_self v hv)
        | none =>
            have hoptional : spec.required = false := by
              rw [← Bool.not_eq_true]
              intro hreq
              obtain ⟨v, hv'⟩ := Entries.lookup_of_has (hrequired _ List.mem_cons_self hreq)
              simp [hv] at hv'
            simp [parameter, Value.isMissing, hoptional]
      rw [parameters, hfirst, hrest, List.map_cons, Entries.along_cons]
      rfl

/-- Nothing that the schema has is unknown. -/
theorem unknown_ofNamed (h : ∀ p ∈ params, (t.schema.lookup p.1).isSome) : unknown t (.ofNamed params) = [] := by
  have hknown : ∀ p ∈ Mapping.ofNamed params, unknown.isKnown t p.1 = true := by
    intro p hp
    obtain ⟨entry, hentry, rfl⟩ := List.mem_map.mp hp
    exact h entry hentry
  rw [unknown, List.filter_eq_nil_iff.mpr fun p hp => by simp [hknown p hp], List.map_nil]

theorem ofParams_of_settled
    (hsettled : ∀ p ∈ params, ∃ spec, (p.1, spec) ∈ t.schema ∧ spec.Settled p.2)
    (hrequired : ∀ p ∈ t.schema, p.2.required → params.has p.1) :
    ofParams t (.ofNamed params) = .ok ⟨[], params.along (t.schema.map (·.1))⟩ := by
  have hknown : ∀ p ∈ params, (t.schema.lookup p.1).isSome := by
    intro p hp
    obtain ⟨spec, hmem, _⟩ := hsettled p hp
    rw [Entries.lookup_of_mem t.nodup_schema hmem]
    rfl
  have hlookup : ∀ entry ∈ t.schema, ∀ v, params.lookup entry.1 = some v → entry.2.Settled v := by
    rintro ⟨name, spec⟩ hentry v hv
    obtain ⟨spec', hmem, hspec⟩ := hsettled _ (Entries.mem_of_lookup hv)
    exact LayerType.eq_of_mem_schema hmem hentry ▸ hspec
  rw [ofParams, parameters_of_settled hlookup hrequired, unknown_ofNamed hknown]
  rfl

end Validation

/-! ## Resolving again -/

namespace LayerType

/-- The defaults are of parameters of the schema, each of them one. -/
theorem nodup_optionalDefaults (t : LayerType) : (t.optionalDefaults.map (·.1)).Nodup := by cases t <;> decide

theorem optionalDefaults_subset (t : LayerType) : ∀ k ∈ t.optionalDefaults.map (·.1), k ∈ t.schema.map (·.1) := by
  cases t <;> decide

end LayerType

namespace ShapePlan

variable {t : LayerType} {params : Entries String Value} {record record' : LayerRecord} {index index' : Nat}

/-- Resolved parameters are settled, and those that the schema requires are among them. -/
theorem settled_of_resolveParams (h : resolveParams index record t = .ok params) :
    (∀ p ∈ params, ∃ spec, (p.1, spec) ∈ t.schema ∧ spec.Settled p.2) ∧
      ∀ p ∈ t.schema, p.2.required → params.has p.1 := by
  obtain ⟨v, hv, hvalid, rfl⟩ := resolveParams_eq_ok.mp h
  obtain ⟨haccepts, hrequired⟩ := Validation.accepts_of_valid hv hvalid
  constructor
  · intro p hp
    rcases Entries.mem_of_mem_putAll hp with hp | hp
    · exact ParameterSpec.settled_of_default hp
    · obtain ⟨spec, hmem, hspec⟩ := haccepts p hp
      have hruled := ParameterSpec.wellRuled_schema t _ hmem
      have hworded := ParameterSpec.worded_schema t _ hmem
      exact ⟨spec, hmem, ParameterSpec.settled_of_accepts hruled hworded hspec⟩
  · intro p hp hreq
    exact Entries.has_putAll.mpr (.inr (hrequired p hp hreq))

/-- What is found under a name among resolved parameters is what came of the parameter, or else its default. -/
theorem lookup_of_resolveParams (h : resolveParams index record t = .ok params) {name : String} {spec : ParameterSpec}
    (hmem : (name, spec) ∈ t.schema) :
    ∃ w, Validation.parameter name spec (record.params.value name) = .ok w ∧ w.errors = [] ∧
      params.lookup name = (w.values.lookup name).or (t.optionalDefaults.lookup name) := by
  obtain ⟨v, hv, hvalid, rfl⟩ := resolveParams_eq_ok.mp h
  rw [Entries.lookup_putAll (Validation.nodup_values hv)]
  simp only [Validation.ofParams, bind_eq_ok, pure_eq_ok] at hv
  obtain ⟨known, hknown, rfl⟩ := hv
  simp only [Validation.isValid, List.isEmpty_iff, List.append_eq_nil_iff] at hvalid
  obtain ⟨w, hw, hlookup, _, herrors⟩ := Validation.lookup_of_parameters hknown t.nodup_schema hmem
  exact ⟨w, hw, herrors hvalid.2, by rw [hlookup]⟩

/-- A required parameter was given, and what is found is what was read. -/
theorem lookup_of_required (h : resolveParams index record t = .ok params) {name : String} {spec : ParameterSpec}
    (hmem : (name, spec) ∈ t.schema) (hrequired : spec.required) :
    ∃ v, spec.kind.coerce (record.params.value name) = .ok v ∧ spec.Accepts v ∧ params.lookup name = some v := by
  obtain ⟨w, hw, herrors, hlookup⟩ := lookup_of_resolveParams h hmem
  rcases Validation.read_of_parameter hw herrors with ⟨_, hoptional, _⟩ | ⟨v, hcoerce, haccepts, hvalues⟩
  · simp [hrequired] at hoptional
  · exact ⟨v, hcoerce, haccepts, by simp [hlookup, hvalues]⟩

/-- Parameters are in a normal form once they are resolved: given to a layer of the type they come back as they are, in
the order in which they stand. -/
theorem resolveParams_ofNamed (h : resolveParams index record t = .ok params) (hrecord : record'.params = .ofNamed params) :
    resolveParams index' record' t = .ok params := by
  obtain ⟨hsettled, hrequired⟩ := settled_of_resolveParams h
  obtain ⟨v, hv, hvalid, hparams⟩ := resolveParams_eq_ok.mp h
  refine resolveParams_eq_ok.mpr ⟨_, hrecord ▸ Validation.ofParams_of_settled hsettled hrequired, rfl, ?_⟩
  have hnames : (v.values.map (·.1)).Sublist (t.schema.map (·.1)) := Validation.names_of_ofParams hv
  rw [← hparams]
  exact Entries.putAll_along t.nodup_optionalDefaults t.optionalDefaults_subset hnames t.nodup_schema

end ShapePlan

end LayerStack
