import LayerStack.Operator.Build
import LayerStack.Proofs.Entries
import LayerStack.Proofs.Parameter.Form
import LayerStack.Shape.Plan
import Mathlib.Data.List.Nodup

/-!
# LayerStack.Proofs.Parameter.Complete

Checked and completed parameters can be read.

What a layer's parameters come to once they have passed their check and the defaults have been put under them is
complete (`LayerType.Complete`): all of them are of the schema and of the form it asks for, and those that are required
or have a default are there.  The main statement is `ofParams_of_complete`: complete parameters are read into settings,
and these settings are within the bounds (`LayerConfig.Valid`) that shapes and operators count on.
-/

namespace LayerStack

/-! ## What checking leaves -/

namespace Validation

variable {name : String} {spec : ParameterSpec} {raw : Value} {v : Validation}

/-- What the check of one parameter can come to. -/
inductive Verdict (name : String) (spec : ParameterSpec) (raw : Value) : Validation → Prop
  /-- Nothing was given. -/
  | missing (hmissing : raw.isMissing = true) :
    Verdict name spec raw ⟨if spec.required then [(.text name, [.required])] else [], []⟩
  /-- What was given cannot be read, and is held to no rule. -/
  | unreadable {error : CoercionError} (hpresent : raw.isMissing = false) (herror : spec.kind.coerce raw = .error error) :
    Verdict name spec raw ⟨[(.text name, [.unreadable error])], []⟩
  /-- What was given was read and held to all rules. -/
  | read {value : Value} {failing : List Rule} (hpresent : raw.isMissing = false)
    (hvalue : spec.kind.coerce raw = .ok value) (hfailing : Rule.broken spec.rules value = .ok failing) :
    Verdict name spec raw ⟨if failing.isEmpty then [] else [(.text name, failing.map .broken)], [(name, value)]⟩

theorem verdict_of_parameter (h : parameter name spec raw = .ok v) : Verdict name spec raw v := by
  unfold parameter at h
  split at h
  · next hmissing =>
      obtain rfl := Except.ok.inj h
      exact .missing hmissing
  · next hmissing =>
      have hpresent : raw.isMissing = false := by simpa using hmissing
      split at h
      · contradiction
      · contradiction
      · next herror =>
          obtain rfl := Except.ok.inj h
          exact .unreadable hpresent herror
      · next hvalue =>
          simp only [bind_eq_ok, pure_eq_ok] at h
          obtain ⟨failing, hfailing, rfl⟩ := h
          exact .read hpresent hvalue hfailing

/-- A parameter with nothing wrong about it is left out where it may be, or has a value that was read and breaks no
rule. -/
theorem read_of_parameter (h : parameter name spec raw = .ok v) (hv : v.errors = []) :
    (raw.isMissing = true ∧ spec.required = false ∧ v.values = []) ∨
      ∃ value, spec.kind.coerce raw = .ok value ∧ spec.Accepts value ∧ v.values = [(name, value)] := by
  cases verdict_of_parameter h with
  | missing hmissing =>
      refine .inl ⟨hmissing, ?_, rfl⟩
      by_contra hreq
      simp [hreq] at hv
  | unreadable hpresent herror => simp at hv
  | @read value failing hpresent hvalue hfailing =>
      obtain rfl : failing = [] := by
        cases failing with
        | nil => rfl
        | cons rule rules => simp at hv
      have hcoerced : spec.kind.coercePresent raw = .ok value := by simpa [Kind.coerce, hpresent] using hvalue
      exact .inr ⟨value, hvalue, ⟨⟨raw, hcoerced⟩, Rule.broken_eq_nil_iff.mp hfailing⟩, rfl⟩

/-- So it has an accepted value, and one if it is required. -/
theorem accepts_of_parameter (h : parameter name spec raw = .ok v) (hv : v.errors = []) :
    (∀ p ∈ v.values, p.1 = name ∧ spec.Accepts p.2) ∧ (spec.required → v.values.has name) := by
  rcases read_of_parameter h hv with ⟨_, hoptional, hnone⟩ | ⟨value, _, haccepts, hone⟩
  · simp [hnone, hoptional]
  · rw [hone]
    exact ⟨by simpa using haccepts, fun _ => by simp [Entries.has]⟩

/-- Of parameters with nothing wrong about them, every value is accepted by the schema, and those that it requires are
there. -/
theorem accepts_of_parameters {schema : Schema} {params : Mapping} (h : parameters schema params = .ok v)
    (hv : v.errors = []) :
    (∀ p ∈ v.values, ∃ spec, (p.1, spec) ∈ schema ∧ spec.Accepts p.2) ∧
      ∀ p ∈ schema, p.2.required → v.values.has p.1 := by
  induction schema generalizing v with
  | nil =>
      obtain rfl := Except.ok.inj h
      simp
  | cons entry schema ih =>
      obtain ⟨name, spec⟩ := entry
      simp only [parameters, bind_eq_ok, pure_eq_ok] at h
      obtain ⟨first, hfirst, rest, hrest, rfl⟩ := h
      simp only [List.append_eq_nil_iff] at hv
      obtain ⟨haccepts, hgiven⟩ := accepts_of_parameter hfirst hv.1
      obtain ⟨haccepts', hgiven'⟩ := ih hrest hv.2
      constructor
      · intro p hp
        rcases List.mem_append.mp hp with hp | hp
        · obtain ⟨hname, hspec⟩ := haccepts p hp
          exact ⟨spec, by simp [hname], hspec⟩
        · obtain ⟨spec', hmem, hspec⟩ := haccepts' p hp
          exact ⟨spec', List.mem_cons_of_mem _ hmem, hspec⟩
      · intro p hp hreq
        rw [Entries.has, List.any_append, Bool.or_eq_true]
        rcases List.mem_cons.mp hp with rfl | hp
        · exact .inl (hgiven hreq)
        · exact .inr (hgiven' p hp hreq)

/-- The same of the parameters of a layer. -/
theorem accepts_of_valid {t : LayerType} {params : Mapping} (h : ofParams t params = .ok v) (hv : v.isValid) :
    (∀ p ∈ v.values, ∃ spec, (p.1, spec) ∈ t.schema ∧ spec.Accepts p.2) ∧
      ∀ p ∈ t.schema, p.2.required → v.values.has p.1 := by
  simp only [ofParams, bind_eq_ok, pure_eq_ok] at h
  obtain ⟨known, hknown, rfl⟩ := h
  simp only [isValid, List.isEmpty_iff, List.append_eq_nil_iff] at hv
  obtain ⟨haccepts, hgiven⟩ := accepts_of_parameters hknown hv.2
  exact ⟨haccepts, hgiven⟩

end Validation

/-! ## Complete parameters -/

namespace LayerType

/-- The parameters that are there once the defaults have been put under the given ones. -/
def settles (t : LayerType) (name : String) : Bool :=
  (t.schema.lookup name).any (·.required) || t.optionalDefaults.has name

/-- All parameters are of the schema and of the form it asks for, and those that a layer settles are there. -/
structure Complete (t : LayerType) (params : Entries String Value) : Prop where
  formed : ∀ p ∈ params, ∃ spec, (p.1, spec) ∈ t.schema ∧ spec.Form p.2
  settled : ∀ name, t.settles name → params.has name

variable {t : LayerType} {params : Entries String Value} {name : String} {spec : ParameterSpec}

/-- A schema has every name once. -/
theorem nodup_schema (t : LayerType) : (t.schema.map (·.1)).Nodup := by cases t <;> decide

/-- So what has a name in it is what the name stands for. -/
theorem eq_of_mem_schema {spec' : ParameterSpec} (h : (name, spec) ∈ t.schema) (h' : (name, spec') ∈ t.schema) :
    spec = spec' := by
  have hpair := List.inj_on_of_nodup_map t.nodup_schema h h' rfl
  exact congrArg Prod.snd hpair

/-- The parameters of a layer that passed its check, completed with defaults. -/
theorem complete_of_resolveParams {index : Nat} {record : LayerRecord}
    (h : ShapePlan.resolveParams index record t = .ok params) : t.Complete params := by
  simp only [ShapePlan.resolveParams, bind_eq_ok, Analysis.ofFault_eq_ok] at h
  obtain ⟨v, hv, h⟩ := h
  split at h
  · next hvalid =>
      obtain rfl := Except.ok.inj h
      obtain ⟨haccepts, hrequired⟩ := Validation.accepts_of_valid hv hvalid
      constructor
      · intro p hp
        rcases Entries.mem_of_mem_putAll hp with hp | hp
        · exact ParameterSpec.form_of_default hp
        · obtain ⟨spec, hmem, hspec⟩ := haccepts p hp
          exact ⟨spec, hmem, ParameterSpec.form_of_accepts (ParameterSpec.wellRuled_schema t _ hmem) hspec⟩
      · intro name hname
        rw [Entries.has_putAll]
        rcases Bool.or_eq_true_iff.mp hname with hreq | hdefault
        · obtain ⟨spec, hspec, hreq⟩ := (Option.any_eq_true _ _).mp hreq
          exact .inr (hrequired _ (Entries.mem_of_lookup hspec) hreq)
        · exact .inl hdefault
  · contradiction

namespace Complete

/-- A settled parameter is there, in its form. -/
theorem lookup (h : t.Complete params) (hspec : t.schema.lookup name = some spec) (hsettled : t.settles name) :
    ∃ v, params.lookup name = some v ∧ spec.Form v := by
  obtain ⟨v, hv⟩ := Entries.lookup_of_has (h.settled name hsettled)
  obtain ⟨spec', hmem, hform⟩ := h.formed _ (Entries.mem_of_lookup hv)
  exact ⟨v, hv, eq_of_mem_schema (Entries.mem_of_lookup hspec) hmem ▸ hform⟩

variable {β : Type} {form : Value → Option β} {P : β → Prop}

/-- A settled parameter can be read. -/
theorem read (h : t.Complete params) (name : String) (hspec : t.schema.lookup name = some spec)
    (hsettled : t.settles name) (hform : ∀ v, spec.Form v → ∃ b, form v = some b ∧ P b) :
    ∃ b, LayerConfig.read params name form = .ok b ∧ P b := by
  obtain ⟨v, hv, hspec⟩ := h.lookup hspec hsettled
  obtain ⟨b, hb, hP⟩ := hform v hspec
  exact ⟨b, by simp [LayerConfig.read, hv, hb], hP⟩

/-- A settled parameter of a form that has no bounds can be read. -/
theorem readAny (h : t.Complete params) (name : String) (hspec : t.schema.lookup name = some spec)
    (hsettled : t.settles name) (hform : ∀ v, spec.Form v → (form v).isSome) :
    ∃ b, LayerConfig.read params name form = .ok b := by
  obtain ⟨v, hv, hspec⟩ := h.lookup hspec hsettled
  obtain ⟨b, hb⟩ := Option.isSome_iff_exists.mp (hform v hspec)
  exact ⟨b, by simp [LayerConfig.read, hv, hb]⟩

/-- Any parameter can be read where it may be left out. -/
theorem readOptional (h : t.Complete params) (name : String) (hspec : t.schema.lookup name = some spec)
    (hform : ∀ v, spec.Form v → ∃ b, form v = some b ∧ P b) :
    ∃ o, LayerConfig.readOptional params name form = .ok o ∧ ∀ b ∈ o, P b := by
  cases hv : params.lookup name with
  | none => exact ⟨none, by simp [LayerConfig.readOptional, hv], by simp⟩
  | some v =>
      obtain ⟨spec', hmem, hv'⟩ := h.formed _ (Entries.mem_of_lookup hv)
      obtain ⟨b, hb, hP⟩ := hform v (eq_of_mem_schema (Entries.mem_of_lookup hspec) hmem ▸ hv')
      have hread : LayerConfig.readOptional params name form = .ok (some b) := by
        simp [LayerConfig.readOptional, LayerConfig.read, hv, hb, Functor.map, Except.map]
      exact ⟨some b, hread, by simpa using hP⟩

theorem readAnyOptional (h : t.Complete params) (name : String) (hspec : t.schema.lookup name = some spec)
    (hform : ∀ v, spec.Form v → (form v).isSome) : ∃ o, LayerConfig.readOptional params name form = .ok o := by
  obtain ⟨o, ho, _⟩ := h.readOptional (P := fun b => ∃ v, form v = some b) name hspec fun v hv => by
    obtain ⟨b, hb⟩ := Option.isSome_iff_exists.mp (hform v hv)
    exact ⟨b, hb, v, hb⟩
  exact ⟨o, ho⟩

end Complete

end LayerType

/-! ## Valid settings -/

namespace LayerConfig

/-- Two sizes of at least one. -/
def Spans (sizes : Int × Int) : Prop := 1 ≤ sizes.1 ∧ 1 ≤ sizes.2

/-- Settings within the bounds that shapes and operators count on. -/
def Valid : LayerConfig → Prop
  | .dense c => 1 ≤ c.units
  | .conv2d c => 1 ≤ c.filters ∧ Spans c.kernel ∧ Spans c.strides
  | .maxpool2d c => Spans c.pool ∧ Spans c.strides
  | .dropout rate => isProbability rate
  | .flatten | .globalAvgPool1d => True
  | .embedding c => 1 ≤ c.vocabulary ∧ 1 ≤ c.dimension ∧ 1 ≤ c.maxLength
  | .multiHeadAttention c =>
    1 ≤ c.heads ∧ 1 ≤ c.keyWidth ∧ (∀ width ∈ c.valueWidth, 1 ≤ width) ∧ isProbability c.dropout
  | .layerNorm c => c.epsilon.hasDouble
  | .positionalEncoding maxLength _ => 1 ≤ maxLength
  | .transformerBlock c => 1 ≤ c.heads ∧ 1 ≤ c.keyWidth ∧ 1 ≤ c.hidden ∧ isProbability c.dropout

/-! ### Forms read -/

variable {spec : ParameterSpec} {v : Value}

theorem int?_of_form (hkind : spec.kind = .int) (h : spec.Form v) : ∃ n, int? v = some n ∧ 1 ≤ n := by
  simp only [ParameterSpec.Form, hkind] at h
  obtain ⟨n, rfl, hn, _⟩ := h
  exact ⟨n, rfl, hn⟩

theorem bool?_of_form (hkind : spec.kind = .bool) (h : spec.Form v) : (bool? v).isSome := by
  simp only [ParameterSpec.Form, hkind] at h
  obtain ⟨b, rfl⟩ := h
  rfl

theorem pair?_of_form (hkind : spec.kind = .size) (h : spec.Form v) : ∃ sizes, pair? v = some sizes ∧ Spans sizes := by
  simp only [ParameterSpec.Form, hkind] at h
  rcases h with ⟨n, rfl, hn⟩ | ⟨a, b, rfl, ha, hb⟩
  · exact ⟨(n, n), rfl, hn, hn⟩
  · exact ⟨(a, b), rfl, ha, hb⟩

/-- Of a number that obeys a rule about numbers, the predicate of the rule is true. -/
theorem number?_of_form {p : Number → Bool} {rule : Rule} (hkind : spec.kind = .number) (hrule : rule ∈ spec.rules)
    (hp : ∀ v, rule.holds v = .ok (Rule.onNumber p v)) (h : spec.Form v) : ∃ x, number? v = some x ∧ p x := by
  simp only [ParameterSpec.Form, hkind] at h
  obtain ⟨x, hx, hrules⟩ := h
  have hobeys := hrules rule hrule
  have hnumber : v.number? = some x := by
    cases v with
    | int n => exact hx
    | float y => exact hx
    | absent | bool b | text s | list items | row items | mapping entries | scalar s | array items => simp [number?] at hx
  rw [hp] at hobeys
  exact ⟨x, hx, by simpa [Rule.onNumber, hnumber] using hobeys⟩

/-- A text that is one of some names names something. -/
theorem named?_of_form {β : Type} {all : List β} {name : β → String} {message : Option String} {ofName? : String → Option β}
    (hspec : spec.kind = .choice ∧ spec.rules = [.oneOf (all.map fun b => .text (name b)) message])
    (hname : ∀ b, (ofName? (name b)).isSome) (h : spec.Form v) : (named? ofName? v).isSome := by
  simp only [ParameterSpec.Form, hspec.1, hspec.2, List.mem_singleton] at h
  obtain ⟨s, rfl, allowed, message', hrule, hmem⟩ := h
  obtain ⟨rfl, _⟩ := Rule.oneOf.inj hrule
  obtain ⟨b, _, hb⟩ := List.mem_map.mp hmem
  obtain rfl := Value.text.inj hb
  exact hname b

theorem activation_of_form (h : ParameterSpec.activation.Form v) : (named? Activation.ofName? v).isSome :=
  named?_of_form ⟨rfl, rfl⟩ (fun a => by cases a <;> decide) h

theorem initializer_of_form (h : ParameterSpec.initializer.Form v) : (named? Initializer.ofName? v).isSome :=
  named?_of_form ⟨rfl, rfl⟩ (fun i => by cases i <;> decide) h

theorem padding_of_form (h : ParameterSpec.padding.Form v) : (named? Padding.ofName? v).isSome :=
  named?_of_form ⟨rfl, rfl⟩ (fun p => by cases p <;> decide) h

theorem encodingType_of_form {help : String}
    (h : ParameterSpec.Form { kind := .choice, rules := [.encodingType], help := help } v) :
    (named? EncodingType.ofName? v).isSome :=
  named?_of_form ⟨rfl, rfl⟩ (fun e => by cases e <;> decide) h

theorem dropout_of_form {help : String} (h : (ParameterSpec.dropout help).Form v) :
    ∃ x, number? v = some x ∧ isProbability x :=
  number?_of_form rfl List.mem_cons_self (fun _ => rfl) h

/-- What is below another number is at most that number. -/
theorem le_of_lt {a b : Number} (h : Number.lt a b) : Number.le a b := by
  simp only [Number.lt] at h
  simp [Number.le, h]

theorem rate_of_form {help : String}
    (h : ParameterSpec.Form { kind := .number, rules := [.probability], required := true, help := help } v) :
    ∃ x, number? v = some x ∧ isProbability x := by
  obtain ⟨x, hx, hrate⟩ := number?_of_form rfl List.mem_cons_self (fun _ => rfl) h
  simp only [Bool.and_eq_true] at hrate
  exact ⟨x, hx, by simp [isProbability, le_of_lt hrate.1, le_of_lt hrate.2]⟩

/-- No integer is an epsilon: they are far below one, and above zero. -/
theorem epsilon_ne_int {n : Int} :
    (Rule.range (.float (.ofDecimal false 1 (-12))) (.float (.ofDecimal false 1 (-3)))).holds (.int n) ≠ .ok true := by
  have least : Number.compare? (.double (.ofDecimal false 1 (-12))) (.int n) =
      some (compare 4951760157141521 (n * 2 ^ 92)) := rfl
  have greatest : Number.compare? (.int n) (.double (.ofDecimal false 1 (-3))) =
      some (compare 4611686018427388 (n * 2 ^ 62)).swap := rfl
  intro h
  obtain ⟨hlow, hhigh⟩ := Rule.between_of_holds rfl rfl (x := .int n) rfl h
  simp only [Number.le, least, greatest, Bool.or_eq_true, beq_iff_eq, Option.some.injEq, Int.compare_eq_lt,
    Int.compare_eq_eq, Ordering.swap_eq_lt, Ordering.swap_eq_eq, Int.compare_eq_gt] at hlow hhigh
  omega

theorem epsilon_of_form {help : String}
    (h : ParameterSpec.Form { kind := .number, rules := [.positiveNumber, .range (.float (.ofDecimal false 1 (-12)))
      (.float (.ofDecimal false 1 (-3)))], help := help } v) :
    ∃ x, number? v = some x ∧ x.hasDouble := by
  obtain ⟨x, hx, hrules⟩ := h
  have hrange := hrules _ (List.mem_cons_of_mem _ List.mem_cons_self)
  cases v with
  | int n => exact absurd hrange epsilon_ne_int
  | float y => exact ⟨_, hx, by obtain rfl := Option.some.inj hx; rfl⟩
  | absent | bool b | text s | list items | row items | mapping entries | scalar s | array items => simp [number?] at hx

/-! ### Settings read -/

variable {t : LayerType} {params : Entries String Value}

/-- Complete parameters are read into settings within their bounds. -/
theorem ofParams_of_complete (ht : t ≠ .input) (h : t.Complete params) :
    ∃ config, ofParams t params = .ok config ∧ config.Valid := by
  cases t with
  | input => exact absurd rfl ht
  | dense | output =>
      obtain ⟨units, hunits, hpos⟩ := h.read "units" rfl rfl fun _ => int?_of_form rfl
      obtain ⟨activation, hactivation⟩ := h.readAny "activation" rfl rfl fun _ => activation_of_form
      obtain ⟨useBias, huseBias⟩ := h.readAny "useBias" rfl rfl fun _ => bool?_of_form rfl
      obtain ⟨initializer, hinitializer⟩ := h.readAny "kernelInitializer" rfl rfl fun _ => initializer_of_form
      refine ⟨.dense ⟨units, activation, useBias, initializer⟩, ?_, hpos⟩
      rw [ofParams, dense?, hunits, hactivation, huseBias, hinitializer]
      rfl
  | conv2d =>
      obtain ⟨filters, hfilters, hpos⟩ := h.read "filters" rfl rfl fun _ => int?_of_form rfl
      obtain ⟨kernel, hkernel, hkernelSpans⟩ := h.read "kernelSize" rfl rfl fun _ => pair?_of_form rfl
      obtain ⟨strides, hstrides, hstridesSpan⟩ := h.read "strides" rfl rfl fun _ => pair?_of_form rfl
      obtain ⟨padding, hpadding⟩ := h.readAny "padding" rfl rfl fun _ => padding_of_form
      obtain ⟨activation, hactivation⟩ := h.readAny "activation" rfl rfl fun _ => activation_of_form
      obtain ⟨useBias, huseBias⟩ := h.readAny "useBias" rfl rfl fun _ => bool?_of_form rfl
      obtain ⟨initializer, hinitializer⟩ := h.readAnyOptional "kernelInitializer" rfl fun _ => initializer_of_form
      refine ⟨.conv2d ⟨filters, kernel, strides, padding, activation, useBias, initializer.getD .glorotUniform⟩, ?_,
        hpos, hkernelSpans, hstridesSpan⟩
      rw [ofParams, conv2d?, hfilters, hkernel, hstrides, hpadding, hactivation, huseBias, hinitializer]
      rfl
  | maxpool2d =>
      obtain ⟨pool, hpool, hpoolSpans⟩ := h.read "poolSize" rfl rfl fun _ => pair?_of_form rfl
      obtain ⟨strides, hstrides, hstridesSpan⟩ := h.readOptional "strides" rfl fun _ => pair?_of_form rfl
      obtain ⟨padding, hpadding⟩ := h.readAny "padding" rfl rfl fun _ => padding_of_form
      refine ⟨.maxpool2d ⟨pool, strides.getD pool, padding⟩, ?_, hpoolSpans, ?_⟩
      · rw [ofParams, maxpool2d?, hpool, hstrides, hpadding]
        rfl
      · cases strides with
        | none => exact hpoolSpans
        | some strides => exact hstridesSpan strides rfl
  | dropout =>
      obtain ⟨rate, hrate, hprobability⟩ := h.read "rate" rfl rfl fun _ => rate_of_form
      refine ⟨.dropout rate, ?_, hprobability⟩
      rw [ofParams, hrate]
      rfl
  | flatten => exact ⟨.flatten, rfl, trivial⟩
  | embedding =>
      obtain ⟨vocabulary, hvocabulary, hvocabularyPos⟩ := h.read "vocabSize" rfl rfl fun _ => int?_of_form rfl
      obtain ⟨dimension, hdimension, hdimensionPos⟩ := h.read "embeddingDim" rfl rfl fun _ => int?_of_form rfl
      obtain ⟨maxLength, hmaxLength, hmaxLengthPos⟩ := h.read "maxLength" rfl rfl fun _ => int?_of_form rfl
      obtain ⟨trainable, htrainable⟩ := h.readAny "trainable" rfl rfl fun _ => bool?_of_form rfl
      refine ⟨.embedding ⟨vocabulary, dimension, maxLength, trainable⟩, ?_, hvocabularyPos, hdimensionPos,
        hmaxLengthPos⟩
      rw [ofParams, embedding?, hvocabulary, hdimension, hmaxLength, htrainable]
      rfl
  | multiHeadAttention =>
      obtain ⟨heads, hheads, hheadsPos⟩ := h.read "numHeads" rfl rfl fun _ => int?_of_form rfl
      obtain ⟨keyWidth, hkeyWidth, hkeyWidthPos⟩ := h.read "keyDim" rfl rfl fun _ => int?_of_form rfl
      obtain ⟨valueWidth, hvalueWidth, hvalueWidthPos⟩ := h.readOptional "valueDim" rfl fun _ => int?_of_form rfl
      obtain ⟨dropout, hdropout, hprobability⟩ := h.read "dropout" rfl rfl fun _ => dropout_of_form
      obtain ⟨useBias, huseBias⟩ := h.readAny "useBias" rfl rfl fun _ => bool?_of_form rfl
      refine ⟨.multiHeadAttention ⟨heads, keyWidth, valueWidth, dropout, useBias⟩, ?_, hheadsPos, hkeyWidthPos,
        hvalueWidthPos, hprobability⟩
      rw [ofParams, multiHeadAttention?, hheads, hkeyWidth, hvalueWidth, hdropout, huseBias]
      rfl
  | layerNorm =>
      obtain ⟨epsilon, hepsilon, hdouble⟩ := h.read "epsilon" rfl rfl fun _ => epsilon_of_form
      obtain ⟨center, hcenter⟩ := h.readAny "center" rfl rfl fun _ => bool?_of_form rfl
      obtain ⟨scale, hscale⟩ := h.readAny "scale" rfl rfl fun _ => bool?_of_form rfl
      refine ⟨.layerNorm ⟨epsilon, center, scale⟩, ?_, hdouble⟩
      rw [ofParams, layerNorm?, hepsilon, hcenter, hscale]
      rfl
  | positionalEncoding =>
      obtain ⟨maxLength, hmaxLength, hpos⟩ := h.read "maxLength" rfl rfl fun _ => int?_of_form rfl
      obtain ⟨encoding, hencoding⟩ := h.readAny "encodingType" rfl rfl fun _ => encodingType_of_form
      refine ⟨.positionalEncoding maxLength encoding, ?_, hpos⟩
      rw [ofParams, hmaxLength, hencoding]
      rfl
  | transformerBlock =>
      obtain ⟨heads, hheads, hheadsPos⟩ := h.read "numHeads" rfl rfl fun _ => int?_of_form rfl
      obtain ⟨keyWidth, hkeyWidth, hkeyWidthPos⟩ := h.read "keyDim" rfl rfl fun _ => int?_of_form rfl
      obtain ⟨hidden, hhidden, hhiddenPos⟩ := h.read "ffDim" rfl rfl fun _ => int?_of_form rfl
      obtain ⟨dropout, hdropout, hprobability⟩ := h.read "dropout" rfl rfl fun _ => dropout_of_form
      refine ⟨.transformerBlock ⟨heads, keyWidth, hidden, dropout⟩, ?_, hheadsPos, hkeyWidthPos, hhiddenPos,
        hprobability⟩
      rw [ofParams, transformerBlock?, hheads, hkeyWidth, hhidden, hdropout]
      rfl
  | globalAvgPool1d => exact ⟨.globalAvgPool1d, rfl, trivial⟩

theorem ints?_list (ns : List Int) : ints? (.list (ns.map .int)) = some ns := by
  rw [ints?]
  induction ns with
  | nil => rfl
  | cons n ns ih => simp [int?, ih]

/-- Complete parameters of an input layer declare from one to three lengths, none of them below one. -/
theorem inputShape?_of_complete (h : LayerType.input.Complete params) :
    ∃ shape, inputShape? params = .ok shape ∧ 1 ≤ shape.length ∧ shape.length ≤ 3 ∧ ∀ n ∈ shape, 1 ≤ n := by
  refine h.read "shape" rfl rfl fun v hv => ?_
  obtain ⟨ns, rfl, hshape⟩ := hv
  exact ⟨ns, ints?_list ns, hshape⟩

end LayerConfig

/-! ## Names -/

namespace LayerType.Complete

variable {t : LayerType} {params : Entries String Value} {v : Value}

/-- An activation among complete parameters is the name of one. -/
theorem choose_activation (h : t.Complete params) (hv : params.lookup "activation" = some v) :
    ∃ name a, v = .text name ∧ Activation.choose name = .ok a := by
  obtain ⟨spec, hmem, hform⟩ := h.formed _ (Entries.mem_of_lookup hv)
  obtain rfl : spec = ParameterSpec.activation := by
    cases t <;> simp [LayerType.schema, LayerType.denseSchema] at hmem <;> exact hmem
  obtain ⟨a, ha⟩ := Option.isSome_iff_exists.mp (LayerConfig.activation_of_form hform)
  obtain ⟨name, rfl, _⟩ := hform
  have hname : Activation.ofName? name = some a := ha
  exact ⟨name, a, rfl, by rw [Activation.choose, hname]⟩

/-- An initializer among them is the name of one. -/
theorem choose_initializer (h : t.Complete params) (hv : params.lookup "kernelInitializer" = some v) :
    ∃ name i, v = .text name ∧ Initializer.choose name = .ok i := by
  obtain ⟨spec, hmem, hform⟩ := h.formed _ (Entries.mem_of_lookup hv)
  obtain rfl : spec = ParameterSpec.initializer := by
    cases t <;> simp [LayerType.schema, LayerType.denseSchema] at hmem <;> exact hmem
  obtain ⟨i, hi⟩ := Option.isSome_iff_exists.mp (LayerConfig.initializer_of_form hform)
  obtain ⟨name, rfl, _⟩ := hform
  have hname : Initializer.ofName? name = some i := hi
  exact ⟨name, i, rfl, by rw [Initializer.choose, hname]⟩

end LayerType.Complete

end LayerStack
