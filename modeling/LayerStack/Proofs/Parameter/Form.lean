import LayerStack.Proofs.Number
import LayerStack.Proofs.Parameter.Coerce
import Mathlib.Data.List.Basic

/-!
# LayerStack.Proofs.Parameter.Form

The form of the values that a parameter accepts.

Coercion and rules are separate passes, and a rule for sizes lets whole doubles pass; only together do they settle what
a value is.  `ParameterSpec.Accepts` says that a value is the coerced form of something that was given and breaks no
rule, `ParameterSpec.Form` what it then looks like, kind by kind.  The main statement is `form_of_accepts`: in every
schema of the palette, what is accepted has the form of its kind, so a size is an integer of at least one and a choice
is one of the texts it may be.
-/

namespace LayerStack

namespace Rule

/-- Is a value one that a rule decides against? -/
def refuses (rule : Rule) (v : Value) : Bool := rule.holds v matches .ok false

/-- Where every rule decides, the broken ones are all those that decide against the value, in their order. -/
theorem broken_eq_ok {rules failing : List Rule} {v : Value} :
    broken rules v = .ok failing ↔
      (∀ rule ∈ rules, ∃ obeyed, rule.holds v = .ok obeyed) ∧ failing = rules.filter (·.refuses v) := by
  induction rules generalizing failing with
  | nil => simp [broken, eq_comm]
  | cons rule rules ih =>
      simp only [broken, bind_eq_ok, pure_eq_ok, List.forall_mem_cons]
      constructor
      · rintro ⟨obeyed, hobeyed, rest, hrest, rfl⟩
        obtain ⟨hdecided, rfl⟩ := ih.mp hrest
        refine ⟨⟨⟨obeyed, hobeyed⟩, hdecided⟩, ?_⟩
        cases obeyed <;> simp [refuses, hobeyed]
      · rintro ⟨⟨⟨obeyed, hobeyed⟩, hdecided⟩, rfl⟩
        refine ⟨obeyed, hobeyed, _, ih.mpr ⟨hdecided, rfl⟩, ?_⟩
        cases obeyed <;> simp [refuses, hobeyed]

/-- No rule is broken exactly where every one of them holds. -/
theorem broken_eq_nil_iff {rules : List Rule} {v : Value} :
    broken rules v = .ok [] ↔ ∀ rule ∈ rules, rule.holds v = .ok true := by
  rw [broken_eq_ok, eq_comm, List.filter_eq_nil_iff, ← forall₂_and]
  refine forall₂_congr fun rule _ => ?_
  constructor
  · rintro ⟨⟨obeyed, hobeyed⟩, hkept⟩
    cases obeyed with
    | true => exact hobeyed
    | false => simp [refuses, hobeyed] at hkept
  · intro h
    exact ⟨⟨true, h⟩, by simp [refuses, h]⟩

/-! ## Integers -/

/-- An integer passes for a positive one only if it is at least one. -/
theorem one_le_of_isPositiveInteger {n : Int} (h : isPositiveInteger (.int n) = .ok true) : 1 ≤ n := by
  simp only [isPositiveInteger, Value.number?, bind_eq_ok, pure_eq_ok, Bool.and_eq_true] at h
  obtain ⟨_, _, _, hlt⟩ := h
  simp only [Number.lt, Number.compare?, beq_iff_eq, Option.some.injEq, Int.compare_eq_lt] at hlt
  omega

/-- What passes for a positive integer once it is normalized is one: whole doubles have become integers by then, and
booleans stay what they are. -/
theorem normalize_of_isPositiveInteger {v : Value}
    (h : isPositiveInteger (Kind.normalizeUnlessBoolean v) = .ok true) :
    ∃ n, Kind.normalizeUnlessBoolean v = .int n ∧ 1 ≤ n := by
  have double (x : Binary64) (hx : isPositiveInteger (Kind.ofBinary64 x) = .ok true) :
      ∃ n, Kind.ofBinary64 x = .int n ∧ 1 ≤ n := by
    unfold Kind.ofBinary64 at hx ⊢
    cases hw : x.toInt? with
    | some n =>
        rw [hw] at hx
        exact ⟨n, rfl, one_le_of_isPositiveInteger hx⟩
    | none =>
        rw [hw] at hx
        simp [isPositiveInteger, Value.number?, isWhole, Binary64.isWhole, hw, bind, Except.bind, pure,
          Except.pure] at hx
  cases v with
  | int n => exact ⟨n, rfl, one_le_of_isPositiveInteger h⟩
  | float x => exact double x h
  | scalar s =>
      cases s with
      | int64 n | int32 n | uint64 n => exact ⟨n, rfl, one_le_of_isPositiveInteger h⟩
      | float64 x | float32 x => exact double x h
      | bool b => simp [Kind.normalizeUnlessBoolean, Value.isBoolean, isPositiveInteger, Value.number?] at h
  | absent | bool b | text s | list items | row items | mapping entries | array items =>
      simp [Kind.normalizeUnlessBoolean, Kind.normalize, Kind.plain, Value.isBoolean, isPositiveInteger,
        Value.number?] at h

/-- The same of all items of a list. -/
theorem normalize_of_allPositiveIntegers {vs : List Value}
    (h : allPositiveIntegers (vs.map Kind.normalizeUnlessBoolean) = .ok true) :
    ∃ ns : List Int, vs.map Kind.normalizeUnlessBoolean = ns.map Value.int ∧ ∀ n ∈ ns, 1 ≤ n := by
  induction vs with
  | nil => exact ⟨[], rfl, by simp⟩
  | cons v vs ih =>
      simp only [List.map_cons, allPositiveIntegers, bind_eq_ok] at h
      obtain ⟨first, hfirst, h⟩ := h
      cases first with
      | false => simp [pure, Except.pure] at h
      | true =>
          obtain ⟨n, hn, hpos⟩ := normalize_of_isPositiveInteger hfirst
          obtain ⟨ns, hns, hall⟩ := ih (by simpa using h)
          exact ⟨n :: ns, by simp [hn, hns], by simpa using ⟨hpos, hall⟩⟩

/-- An integer between two others, as the rule compares them. -/
theorem between_holds {least greatest n : Int} (h : (between least greatest).holds (.int n) = .ok true) :
    least ≤ n ∧ n ≤ greatest := by
  obtain ⟨hlow, hhigh⟩ := between_of_holds (a := .int least) (b := .int greatest) (x := .int n) rfl rfl rfl h
  exact ⟨Number.le_int.mp hlow, Number.le_int.mp hhigh⟩

/-! ## Choices -/

/-- Only a text is equal to a text. -/
theorem eq_text_of_same? {s : String} {v : Value} (h : (Value.text s).same? v = some true) : v = .text s := by
  cases v with
  | text t =>
      simp only [Value.same?, Value.samePlain?, Value.overruns, Value.overruns.past, Value.unboxed, Bool.or_self,
        Bool.false_eq_true, if_false, Option.some.injEq, Value.samePlain, beq_iff_eq] at h
      rw [h]
  | list items | row items => simp [Value.same?] at h
  | absent | bool b | int n | float x | mapping entries | scalar x | array items =>
      simp [Value.same?, Value.samePlain?, Value.samePlain, Value.compare?, Value.paired?, Value.quantity?,
        Value.unboxed, Value.number?] at h

/-- What is among some texts is one of them. -/
theorem mem_of_isAmong {v : Value} {allowed : List Value} (texts : ∀ a ∈ allowed, ∃ s, a = .text s)
    (h : isAmong v allowed = .ok true) : ∃ s, v = .text s ∧ .text s ∈ allowed := by
  induction allowed with
  | nil => simp [isAmong] at h
  | cons a rest ih =>
      obtain ⟨s, rfl⟩ := texts a List.mem_cons_self
      unfold isAmong at h
      cases hsame : (Value.text s).same? v with
      | none => rw [hsame] at h; simp at h
      | some same =>
          rw [hsame] at h
          cases same with
          | true => exact ⟨s, eq_text_of_same? hsame, List.mem_cons_self⟩
          | false =>
              obtain ⟨t, ht, hmem⟩ := ih (fun b hb => texts b (List.mem_cons_of_mem _ hb)) h
              exact ⟨t, ht, List.mem_cons_of_mem _ hmem⟩

end Rule

/-! ## Accepted values -/

namespace ParameterSpec

/-- A value that a parameter accepts: the coerced form of one that is not missing, and it breaks no rule. -/
structure Accepts (spec : ParameterSpec) (v : Value) : Prop where
  coerced : ∃ raw, spec.kind.coercePresent raw = .ok v
  obeys : ∀ rule ∈ spec.rules, rule.holds v = .ok true

/-- The form of a parameter's value, kind by kind.  Of a number it says no more than that it is one and obeys the
rules. -/
def Form (spec : ParameterSpec) (v : Value) : Prop :=
  match spec.kind with
  | .int =>
    ∃ n, v = .int n ∧ 1 ≤ n ∧
      ∀ least greatest : Int, Rule.between least greatest ∈ spec.rules → least ≤ n ∧ n ≤ greatest
  | .number => ∃ x, LayerConfig.number? v = some x ∧ ∀ rule ∈ spec.rules, rule.holds v = .ok true
  | .bool => ∃ b, v = .bool b
  | .choice =>
    ∃ s, v = .text s ∧ ∃ allowed message, Rule.oneOf allowed message ∈ spec.rules ∧ Value.text s ∈ allowed
  | .shape => ∃ ns : List Int, v = .list (ns.map .int) ∧ 1 ≤ ns.length ∧ ns.length ≤ 3 ∧ ∀ n ∈ ns, 1 ≤ n
  | .size => (∃ n, v = .int n ∧ 1 ≤ n) ∨ ∃ a b, v = .list [.int a, .int b] ∧ 1 ≤ a ∧ 1 ≤ b

/-- The rules that a kind goes with in every schema. -/
def WellRuled (spec : ParameterSpec) : Prop :=
  match spec.kind with
  | .int => Rule.positiveInteger ∈ spec.rules
  | .number => ∃ rule ∈ spec.rules, ∀ v, rule.holds v = .ok true → v.number?.isSome
  | .bool => Rule.boolean ∈ spec.rules
  | .choice => ∃ allowed message, Rule.oneOf allowed message ∈ spec.rules ∧ ∀ a ∈ allowed, ∃ s, a = .text s
  | .shape => Rule.rank (.int 1) (.int 3) ∈ spec.rules ∧ Rule.positiveIntegers ∈ spec.rules
  | .size => Rule.size2d ∈ spec.rules

variable {spec : ParameterSpec} {v : Value}

/-- A coerced integer parameter is a normalized value. -/
theorem eq_normalize_of_coercePresent_int {raw : Value} (h : Kind.int.coercePresent raw = .ok v) :
    ∃ w, v = Kind.normalizeUnlessBoolean w := by
  obtain ⟨w, _, hw⟩ := Kind.coercePresent_eq_ok (by decide) h
  exact ⟨w, (Except.ok.inj hw).symm⟩

/-- A coerced number is a plain value. -/
theorem eq_plain_of_coercePresent_number {raw : Value} (h : Kind.number.coercePresent raw = .ok v) :
    ∃ w, v = Kind.plain w := by
  obtain ⟨w, _, hw⟩ := Kind.coercePresent_eq_ok (by decide) h
  exact ⟨w, (Except.ok.inj hw).symm⟩

/-- A coerced shape or size has normalized items. -/
theorem eq_normalizeItems_of_coercePresent {kind : Kind} {raw : Value} (hkind : kind = .shape ∨ kind = .size)
    (h : kind.coercePresent raw = .ok v) : ∃ w, v = Kind.normalizeItems w := by
  have hchoice : kind ≠ .choice := by rcases hkind with rfl | rfl <;> nofun
  obtain ⟨w, _, hw⟩ := Kind.coercePresent_eq_ok hchoice h
  rcases hkind with rfl | rfl <;>
    obtain ⟨l, _, hl⟩ := bind_eq_ok.mp hw <;>
    exact ⟨l, (pure_eq_ok.mp hl).symm⟩

/-- A plain number is an integer or a double. -/
theorem number?_plain {w : Value} (h : (Kind.plain w).number?.isSome) :
    ∃ x, LayerConfig.number? (Kind.plain w) = some x := by
  cases w with
  | int n => exact ⟨_, rfl⟩
  | float x => exact ⟨_, rfl⟩
  | scalar s =>
      cases s with
      | bool b => simp [Kind.plain, Value.number?] at h
      | int64 n | int32 n | uint64 n | float64 x | float32 x => exact ⟨_, rfl⟩
  | absent | bool b | text s | list items | row items | mapping entries | array items =>
      simp [Kind.plain, Value.number?] at h

/-- A coerced flag that is a boolean is a plain one. -/
theorem eq_bool_of_coercePresent_bool {raw : Value} (h : Kind.bool.coercePresent raw = .ok v) (hv : v.isBoolean) :
    ∃ b, v = .bool b := by
  obtain ⟨w, _, hw⟩ := Kind.coercePresent_eq_ok (by decide) h
  obtain rfl := Except.ok.inj hw
  cases w with
  | bool b => exact ⟨b, rfl⟩
  | scalar s =>
      cases s with
      | bool b => exact ⟨b, rfl⟩
      | int64 n | int32 n | uint64 n | float64 x | float32 x => contradiction
  | absent | int n | float x | text s | list items | row items | mapping entries | array items => contradiction

/-- The normalized value of a list is the list of its normalized items. -/
theorem items_of_normalizeItems {w : Value} {items : List Value} (h : Kind.normalizeItems w = .list items) :
    ∃ vs : List Value, items = vs.map Kind.normalizeUnlessBoolean := by
  by_cases hlist : ∃ vs, w = .list vs
  · obtain ⟨vs, rfl⟩ := hlist
    exact ⟨vs, (Value.list.inj h).symm⟩
  · have hsingle (vs : List Value) : w ≠ .list vs := fun hvs => hlist ⟨vs, hvs⟩
    rw [Kind.normalizeItems_of_ne_list hsingle] at h
    exact absurd h (Kind.normalizeUnlessBoolean_ne_list hsingle items)

/-- A normalized value that is no list is a normalized single value. -/
theorem eq_normalize_of_normalizeItems {w : Value} (h : ∀ items, Kind.normalizeItems w ≠ .list items) :
    Kind.normalizeItems w = Kind.normalizeUnlessBoolean w := by
  refine Kind.normalizeItems_of_ne_list ?_
  rintro items rfl
  exact h _ rfl

/-- Where the rules suit the kind, an accepted value has the form of its kind. -/
theorem form_of_accepts (hr : spec.WellRuled) (h : spec.Accepts v) : spec.Form v := by
  obtain ⟨⟨raw, hraw⟩, hobeys⟩ := h
  unfold WellRuled at hr
  unfold Form
  cases hkind : spec.kind with
  | int =>
      simp only [hkind] at hr hraw ⊢
      obtain ⟨w, rfl⟩ := eq_normalize_of_coercePresent_int hraw
      obtain ⟨n, hn, hpos⟩ := Rule.normalize_of_isPositiveInteger (hobeys _ hr)
      rw [hn] at hobeys ⊢
      exact ⟨n, rfl, hpos, fun least greatest hmem => Rule.between_holds (hobeys _ hmem)⟩
  | number =>
      simp only [hkind] at hr hraw ⊢
      obtain ⟨w, rfl⟩ := eq_plain_of_coercePresent_number hraw
      obtain ⟨rule, hrule, hnumber⟩ := hr
      obtain ⟨x, hx⟩ := number?_plain (hnumber _ (hobeys rule hrule))
      exact ⟨x, hx, hobeys⟩
  | bool =>
      simp only [hkind] at hr hraw ⊢
      exact eq_bool_of_coercePresent_bool hraw (Except.ok.inj (hobeys _ hr))
  | choice =>
      simp only [hkind] at hr ⊢
      obtain ⟨allowed, message, hmem, htexts⟩ := hr
      obtain ⟨s, hs, hallowed⟩ := Rule.mem_of_isAmong htexts (hobeys _ hmem)
      exact ⟨s, hs, allowed, message, hmem, hallowed⟩
  | shape =>
      simp only [hkind] at hr hraw ⊢
      obtain ⟨w, rfl⟩ := eq_normalizeItems_of_coercePresent (.inl rfl) hraw
      have hrank := hobeys _ hr.1
      have hpos := hobeys _ hr.2
      simp only [Rule.holds] at hrank hpos
      split at hpos
      · next items hitems =>
          obtain ⟨vs, rfl⟩ := items_of_normalizeItems hitems
          obtain ⟨ns, hns, hall⟩ := Rule.normalize_of_allPositiveIntegers hpos
          rw [hitems] at hrank ⊢
          have hlen : vs.length = ns.length := by simpa using congrArg List.length hns
          have hrange : (Rule.between 1 3).holds (.int vs.length) = .ok true := by
            simpa [Rule.between, Rule.holds, Value.number?] using hrank
          have hbetween := Rule.between_holds hrange
          exact ⟨ns, congrArg Value.list hns, by omega, by omega, hall⟩
      · simp at hpos
  | size =>
      simp only [hkind] at hr hraw ⊢
      obtain ⟨w, rfl⟩ := eq_normalizeItems_of_coercePresent (.inr rfl) hraw
      have hsize := hobeys _ hr
      simp only [Rule.holds] at hsize
      split at hsize
      · next items hitems =>
          obtain ⟨vs, rfl⟩ := items_of_normalizeItems hitems
          split at hsize
          · next hlen =>
              obtain ⟨ns, hns, hall⟩ := Rule.normalize_of_allPositiveIntegers hsize
              have hlen' : ns.length = 2 := by rw [← hlen, hns, List.length_map]
              obtain ⟨a, b, rfl⟩ := List.length_eq_two.mp hlen'
              exact .inr ⟨a, b, by rw [hitems, hns]; rfl, hall a (by simp), hall b (by simp)⟩
          · simp at hsize
      · next hlist =>
          rw [eq_normalize_of_normalizeItems hlist] at hsize ⊢
          exact .inl (Rule.normalize_of_isPositiveInteger hsize)

/-! ## The palette -/

/-- A rule that bounds numbers refuses all other values. -/
theorem isSome_of_onNumber {p : Number → Bool} (h : Rule.onNumber p v = true) : v.number?.isSome := by
  cases hv : v.number? with
  | none => simp [Rule.onNumber, hv] at h
  | some x => rfl

theorem wellRuled_choice {all : List Value} {message : Option String} {help : String}
    (hall : ∀ a ∈ all, ∃ s, a = .text s) :
    WellRuled { kind := .choice, rules := [.oneOf all message], help } :=
  ⟨all, message, List.mem_singleton_self _, hall⟩

theorem wellRuled_number {rule : Rule} {rules : List Rule} {required : Bool} {help : String}
    (hrule : ∀ v, rule.holds v = .ok true → v.number?.isSome) :
    WellRuled { kind := .number, rules := rule :: rules, required, help } :=
  ⟨rule, List.mem_cons_self, hrule⟩

/-- Texts made from a list of names are texts. -/
theorem exists_eq_text {β : Type} {all : List β} {name : β → String} :
    ∀ a ∈ all.map (fun b => Value.text (name b)), ∃ s, a = .text s := by
  intro a ha
  obtain ⟨b, _, rfl⟩ := List.mem_map.mp ha
  exact ⟨_, rfl⟩

/-- In every schema the rules suit the kinds. -/
theorem wellRuled_schema (t : LayerType) : ∀ p ∈ t.schema, p.2.WellRuled := by
  have hactivation : activation.WellRuled := wellRuled_choice exists_eq_text
  have hinitializer : initializer.WellRuled := wellRuled_choice exists_eq_text
  have hpadding : padding.WellRuled := wellRuled_choice exists_eq_text
  have hencoding (help : String) : WellRuled { kind := .choice, rules := [.encodingType], help } :=
    wellRuled_choice exists_eq_text
  have hdropout (help : String) : (ParameterSpec.dropout help).WellRuled :=
    wellRuled_number fun _ h => isSome_of_onNumber (Except.ok.inj h)
  have hrate (required : Bool) (help : String) :
      WellRuled { kind := .number, rules := [.probability], required, help } :=
    wellRuled_number fun _ h => isSome_of_onNumber (Except.ok.inj h)
  have hepsilon (rules : List Rule) (help : String) :
      WellRuled { kind := .number, rules := .positiveNumber :: rules, help } :=
    wellRuled_number fun _ h => isSome_of_onNumber (Except.ok.inj h)
  have hcount (help : String) (required : Bool) : (count help required).WellRuled := List.mem_singleton_self _
  have hbounded (greatest : Int) (help : String) (required : Bool) : (bounded greatest help required).WellRuled :=
    List.mem_cons_self
  have hflag (help : String) : (flag help).WellRuled := List.mem_singleton_self _
  have hsize (help : String) (required : Bool) : (size help required).WellRuled := List.mem_singleton_self _
  have hshape (help : String) : WellRuled
      { kind := .shape, rules := [.rank (.int 1) (.int 3), .positiveIntegers], required := true, help := help } :=
    ⟨List.mem_cons_self, by simp⟩
  cases t <;> simp [LayerType.schema, LayerType.denseSchema, *]

/-! ## Defaults -/

@[simp] theorem required_count (help : String) (required : Bool) : (count help required).required = required := rfl

@[simp] theorem required_bounded (greatest : Int) (help : String) (required : Bool) :
    (bounded greatest help required).required = required := rfl

@[simp] theorem required_size (help : String) (required : Bool) : (size help required).required = required := rfl

theorem form_flag (help : String) : (flag help).Form (.bool true) := ⟨true, rfl⟩

theorem form_size {n : Int} (help : String) (required : Bool) (hn : 1 ≤ n) : (size help required).Form (.int n) :=
  .inl ⟨n, rfl, hn⟩

theorem form_activation (a : Activation) : activation.Form (.text a.name) :=
  ⟨a.name, rfl, _, _, List.mem_singleton_self _, List.mem_map.mpr ⟨a, by cases a <;> decide, rfl⟩⟩

theorem form_initializer (i : Initializer) : initializer.Form (.text i.name) :=
  ⟨i.name, rfl, _, _, List.mem_singleton_self _, List.mem_map.mpr ⟨i, by cases i <;> decide, rfl⟩⟩

theorem form_padding (p : Padding) : padding.Form (.text p.name) :=
  ⟨p.name, rfl, _, _, List.mem_singleton_self _, List.mem_map.mpr ⟨p, by cases p <;> decide, rfl⟩⟩

theorem form_encodingType (e : EncodingType) (help : String) :
    Form { kind := .choice, rules := [.encodingType], help := help } (.text e.name) :=
  ⟨e.name, rfl, _, _, List.mem_singleton_self _, List.mem_map.mpr ⟨e, by cases e <;> decide, rfl⟩⟩

theorem form_dropout {digits places : Nat} (help : String)
    (h : Rule.probabilityInclusive.holds (LayerType.decimal digits places) = .ok true) :
    (ParameterSpec.dropout help).Form (LayerType.decimal digits places) :=
  ⟨_, rfl, by simpa [ParameterSpec.dropout] using h⟩

/-- Every default of a parameter that may be left out has the form of the parameter. -/
theorem form_of_default {t : LayerType} {p : String × Value} (h : p ∈ t.optionalDefaults) :
    ∃ spec, (p.1, spec) ∈ t.schema ∧ spec.Form p.2 := by
  revert p
  cases t <;> simp [LayerType.optionalDefaults, LayerType.defaults, LayerType.schema, LayerType.denseSchema, List.lookup_cons]
  case dense =>
    exact ⟨fun _ => form_activation .relu, fun _ => form_flag _, fun _ => form_initializer .glorotUniform⟩
  case conv2d =>
    exact ⟨form_size _ _ (by decide), fun _ => form_padding .same, fun _ => form_activation .relu, fun _ => form_flag _⟩
  case maxpool2d => exact ⟨form_size _ _ (by decide), fun _ => form_padding .valid⟩
  case output =>
    exact ⟨fun _ => form_activation .softmax, fun _ => form_flag _, fun _ => form_initializer .glorotUniform⟩
  case embedding => exact fun _ => form_flag _
  case multiHeadAttention => exact ⟨fun _ => form_dropout _ (by decide +kernel), fun _ => form_flag _⟩
  case layerNorm =>
    refine ⟨⟨_, rfl, ?_⟩, fun _ => form_flag _, fun _ => form_flag _⟩
    simp only [List.forall_mem_cons, List.not_mem_nil, false_imp_iff, implies_true, and_true]
    exact ⟨rfl, rfl⟩
  case positionalEncoding => exact form_encodingType .sinusoidal _
  case transformerBlock => exact fun _ => form_dropout _ rfl

end ParameterSpec

end LayerStack
