import LayerStack.Proofs.Parameter.Count
import LayerStack.Proofs.Value.Reader

/-!
# LayerStack.Proofs.Parameter.Fault

What keeps a check of parameters from an outcome.

A check is left without an outcome by a number too large, by an array text with too many digits or by rows of unequal
length, never by a parameter that is missing: that one is reported.  `ParameterSpec.Faults` tells exactly for which raw
values that happens (`ParameterSpec.parameter_eq_error`), and `Validation.Faults` for which parameters of a layer: the
first of the schema that faults decides (`Validation.ofParams_eq_error`).
-/

namespace LayerStack

/-! ## Coercion -/

namespace Kind

variable {kind : Kind} {raw v : Value}

/-- Do values of the kind have items? -/
def hasItems : Kind → Bool
  | .shape | .size => true
  | .int | .number | .bool | .choice => false

/-- The rule that counts the values of a kind. -/
def countingRule? : Kind → Option Rule
  | .int => some .positiveInteger
  | .shape => some .positiveIntegers
  | .size => some .size2d
  | .number | .bool | .choice => none

/-- What it counts: a single value, or the items of a list, for a size of a list of two. -/
def counted : Kind → Value → List Value
  | .int, v => [v]
  | .shape, .list items => items
  | .size, .list items => if items.length = 2 then items else []
  | .size, v => [v]
  | _, _ => []

theorem counted_eq_nil (h : kind.countingRule? = none) (v : Value) : kind.counted v = [] := by
  cases kind with
  | number | bool | choice => rfl
  | int | shape | size => contradiction

/-- A coerced value is left undecided by the rule that counts it exactly where the search stumbles. -/
theorem counting_eq_error {rule : Rule} (hrule : kind.countingRule? = some rule)
    (hv : kind.coercePresent raw = .ok v) : rule.holds v = .error .tooLarge ↔ Value.Stumbles (kind.counted v) := by
  cases kind with
  | number | bool | choice => contradiction
  | int =>
      obtain rfl := Option.some.inj hrule
      obtain ⟨w, hw⟩ := ParameterSpec.eq_normalize_of_coercePresent_int hv
      rw [counted, Value.stumbles_singleton]
      exact Rule.isPositiveInteger_eq_error hw
  | shape =>
      obtain rfl := Option.some.inj hrule
      obtain ⟨w, hw⟩ := ParameterSpec.eq_normalizeItems_of_coercePresent (.inl rfl) hv
      cases v with
      | list items =>
          obtain ⟨ws, rfl⟩ := ParameterSpec.items_of_normalizeItems hw.symm
          exact Rule.allPositiveIntegers_eq_error ws
      | absent | bool b | int n | float x | text s | row items | mapping entries | scalar s | array items =>
          simp [counted, Rule.holds, Value.not_stumbles_nil]
  | size =>
      obtain rfl := Option.some.inj hrule
      obtain ⟨w, hw⟩ := ParameterSpec.eq_normalizeItems_of_coercePresent (.inr rfl) hv
      cases v with
      | list items =>
          obtain ⟨ws, rfl⟩ := ParameterSpec.items_of_normalizeItems hw.symm
          simp only [counted, Rule.holds]
          split
          · exact Rule.allPositiveIntegers_eq_error ws
          · simp [Value.not_stumbles_nil]
      | absent | bool b | int n | float x | text s | row items | mapping entries | scalar s | array items =>
          have hsingle := hw.trans (ParameterSpec.eq_normalize_of_normalizeItems fun items h => by
            have hlist := hw.trans h
            contradiction)
          exact (Rule.isPositiveInteger_eq_error hsingle).trans Value.stumbles_singleton.symm

theorem readNumber_eq_error {s : String} {e : CoercionError} (h : readNumber s = .error e) : e = .number := by
  unfold readNumber at h
  split at h
  · contradiction
  · exact (Except.error.inj h).symm

/-- Too many digits are those of a text in brackets. -/
theorem readSize_eq_digits {s : String} :
    readSize kind s = .error .digits ↔
      (Text.strip s.toList).head? = some '[' ∧ Value.Reader.list (Text.strip s.toList) = .error .digits := by
  simp only [readSize]
  split
  · next hopens =>
      cases hlist : Value.Reader.list (Text.strip s.toList) with
      | ok items => simp
      | error refusal => cases refusal <;> simp [hopens]
  · next hopens =>
      have hnumber : (if kind = .size then readNumber s else .error .array) ≠ .error .digits := by
        split
        · intro h
          cases readNumber_eq_error h
        · simp
      simp [hnumber, hopens]

/-- What a text spells is no row, and it spells nothing uneven. -/
theorem listed_of_readSize {s : String} : readSize kind s ≠ .error .uneven ∧ ∀ v, readSize kind s = .ok v → listed v = .ok v := by
  simp only [readSize]
  split
  · cases Value.Reader.list (Text.strip s.toList) with
    | ok items => simp [listed]
    | error refusal => cases refusal <;> simp
  · split
    · rw [readNumber]
      split
      · simp [listed]
      · simp
    · simp

theorem listed_eq_error {e : CoercionError} :
    listed v = .error e ↔ e = .uneven ∧ ∃ items, (v = .row items ∨ v = .array items) ∧ Value.uniform? items = none := by
  cases v with
  | row items | array items =>
      rw [listed]
      cases h : Value.uniform? items <;> simp [h, eq_comm]
  | absent | bool b | int n | float x | text s | list items | mapping entries | scalar s => simp [listed]

/-- Only shapes and sizes fail to be coerced for another reason than the form of a numeral or of a flag. -/
theorem hasItems_of_coercePresent {e : CoercionError} (he : e = .uneven ∨ e = .digits)
    (h : kind.coercePresent raw = .error e) : kind.hasItems := by
  cases kind with
  | shape | size => rfl
  | choice => contradiction
  | int | number =>
      simp only [coercePresent] at h
      split at h
      · simp only [bind_eq_error, pure_ne_error, and_false, exists_false, or_false] at h
        obtain rfl := readNumber_eq_error h
        simp at he
      · contradiction
  | bool =>
      simp only [coercePresent] at h
      split at h
      · split at h
        · contradiction
        · split at h
          · contradiction
          · obtain rfl := Except.error.inj h
            simp at he
      · contradiction
      · contradiction

/-- And these fail by their text or, where they are none, by their rows. -/
theorem coercePresent_eq_error {e : CoercionError} (hkind : kind.hasItems) :
    kind.coercePresent raw = .error e ↔
      (∃ s, raw = .text s ∧ readSize kind s = .error e) ∨ (∀ s, raw ≠ .text s) ∧ listed raw = .error e := by
  by_cases htext : ∃ s, raw = .text s
  · obtain ⟨s, rfl⟩ := htext
    have hread : kind.coercePresent (.text s) = (do
        let v ← readSize kind s
        return normalizeItems (← listed v)) := by
      cases kind with
      | shape | size => rfl
      | int | number | bool | choice => contradiction
    have hlisted (v : Value) (hv : readSize kind s = .ok v) : listed v ≠ .error e := by
      rw [listed_of_readSize.2 v hv]
      nofun
    simp only [hread, bind_eq_error, pure_ne_error, and_false, exists_false, or_false, Value.text.injEq]
    constructor
    · rintro (h | ⟨v, hv, h⟩)
      · exact .inl ⟨s, rfl, h⟩
      · exact absurd h (hlisted v hv)
    · rintro (⟨s', rfl, h⟩ | ⟨h, _⟩)
      · exact .inl h
      · exact absurd rfl (h s)
  · have hnone (s : String) : raw ≠ .text s := fun h => htext ⟨s, h⟩
    have hread : kind.coercePresent raw = (do return normalizeItems (← listed raw)) := by
      cases kind with
      | shape | size =>
          simp only [coercePresent]
          rfl
      | int | number | bool | choice => contradiction
    simp only [hread, bind_eq_error, pure_ne_error, and_false, exists_false, or_false]
    constructor
    · exact fun h => .inr ⟨hnone, h⟩
    · rintro (⟨s, rfl, _⟩ | ⟨_, h⟩)
      · exact absurd rfl (hnone s)
      · exact h

/-- Only a row without a rectangle is uneven. -/
theorem coercePresent_eq_uneven :
    kind.coercePresent raw = .error .uneven ↔
      kind.hasItems ∧ ∃ items, (raw = .row items ∨ raw = .array items) ∧ Value.uniform? items = none := by
  constructor
  · intro h
    have hkind := hasItems_of_coercePresent (.inl rfl) h
    rcases (coercePresent_eq_error hkind).mp h with ⟨s, rfl, hs⟩ | ⟨_, hrows⟩
    · exact absurd hs listed_of_readSize.1
    · exact ⟨hkind, (listed_eq_error.mp hrows).2⟩
  · rintro ⟨hkind, items, hraw, hrows⟩
    refine (coercePresent_eq_error hkind).mpr (.inr ⟨?_, listed_eq_error.mpr ⟨rfl, items, hraw, hrows⟩⟩)
    rintro s rfl
    simp at hraw

/-- Only an array text has too many digits. -/
theorem coercePresent_eq_digits :
    kind.coercePresent raw = .error .digits ↔
      kind.hasItems ∧ ∃ s, raw = .text s ∧ (Text.strip s.toList).head? = some '[' ∧
        Value.Reader.list (Text.strip s.toList) = .error .digits := by
  constructor
  · intro h
    have hkind := hasItems_of_coercePresent (.inr rfl) h
    rcases (coercePresent_eq_error hkind).mp h with ⟨s, hs, hdigits⟩ | ⟨_, hrows⟩
    · exact ⟨hkind, s, hs, readSize_eq_digits.mp hdigits⟩
    · cases (listed_eq_error.mp hrows).1
  · rintro ⟨hkind, s, hs, hdigits⟩
    exact (coercePresent_eq_error hkind).mpr (.inl ⟨s, hs, readSize_eq_digits.mpr hdigits⟩)

end Kind

/-! ## One parameter -/

namespace ParameterSpec

/-- The rule that counts the values of the kind is among the rules, and all others always decide. -/
def WellCounted (spec : ParameterSpec) : Prop :=
  (∀ rule, spec.kind.countingRule? = some rule → rule ∈ spec.rules) ∧
    ∀ rule ∈ spec.rules, spec.kind.countingRule? = some rule ∨ rule.Decides

/-- What keeps the check of a parameter from an outcome. -/
inductive Faults (spec : ParameterSpec) (raw : Value) : AnalysisFault → Prop
  /-- The rows of a shape or size are no rectangle. -/
  | uneven {items : List Value} (hkind : spec.kind.hasItems) (hraw : raw = .row items ∨ raw = .array items)
    (h : Value.uniform? items = none) : Faults spec raw .uneven
  /-- The array text of a shape or size has an integer with too many digits. -/
  | digits {s : String} (hkind : spec.kind.hasItems) (hraw : raw = .text s)
    (hopens : (Text.strip s.toList).head? = some '[') (h : Value.Reader.list (Text.strip s.toList) = .error .digits) :
    Faults spec raw .digits
  /-- What has to be a positive integer is an integer past the doubles. -/
  | tooLarge {v : Value} (hv : spec.kind.coerce raw = .ok v) (h : Value.Stumbles (spec.kind.counted v)) :
    Faults spec raw .tooLarge

variable {spec : ParameterSpec} {raw v : Value} {f : AnalysisFault}

/-- The rules of a coerced value fault exactly where counting it stumbles. -/
theorem broken_eq_error (hspec : spec.WellCounted) (hv : spec.kind.coercePresent raw = .ok v) :
    Rule.broken spec.rules v = .error f ↔ f = .tooLarge ∧ Value.Stumbles (spec.kind.counted v) := by
  rw [Rule.broken_eq_error]
  refine and_congr_right fun _ => ?_
  constructor
  · rintro ⟨rule, hmem, hrule⟩
    rcases hspec.2 rule hmem with hcounting | hdecides
    · exact (Kind.counting_eq_error hcounting hv).mp hrule
    · obtain ⟨obeyed, hobeyed⟩ := Rule.holds_of_decides hdecides v
      rw [hobeyed] at hrule
      contradiction
  · intro h
    cases hcounting : spec.kind.countingRule? with
    | some rule => exact ⟨rule, hspec.1 rule hcounting, (Kind.counting_eq_error hcounting hv).mpr h⟩
    | none =>
        rw [Kind.counted_eq_nil hcounting] at h
        exact absurd h Value.not_stumbles_nil

/-- A text with too many digits has a run of more than are read. -/
theorem longRun_of_faults (h : spec.Faults raw .digits) : ∃ s, raw = .text s ∧ Value.Reader.HasLongRun s.toList := by
  cases h with
  | @digits s hkind hraw hopens hlist => exact ⟨s, hraw, (Value.Reader.longRun_of_list hlist).mono (Text.strip_infix _)⟩

/-- What is missing does not fault. -/
theorem not_faults_of_missing (h : raw.isMissing) : ¬ spec.Faults raw f := by
  intro hfaults
  cases hfaults with
  | uneven hkind hraw _ => rcases hraw with rfl | rfl <;> contradiction
  | @digits s hkind hraw hopens _ =>
      subst hraw
      obtain rfl : s = "" := by simpa [Value.isMissing] using h
      contradiction
  | tooLarge hv hstumbles =>
      rw [Kind.coerce, if_pos h] at hv
      obtain rfl := Except.ok.inj hv
      have habsent : ¬ Value.absent.Overflows := by
        rintro ⟨_, hint, _⟩
        contradiction
      cases hkind : spec.kind <;> rw [hkind] at hstumbles <;>
        simp [Kind.counted, Value.not_stumbles_nil, Value.stumbles_singleton, habsent] at hstumbles

/-- The check of a parameter is left without an outcome exactly where it faults. -/
theorem parameter_eq_error (name : String) (hspec : spec.WellCounted) :
    Validation.parameter name spec raw = .error f ↔ spec.Faults raw f := by
  by_cases hmissing : raw.isMissing
  · rw [Validation.parameter, if_pos hmissing]
    simp [not_faults_of_missing hmissing]
  · have hcoerce : spec.kind.coerce raw = spec.kind.coercePresent raw := if_neg hmissing
    rw [Validation.parameter, if_neg hmissing, hcoerce]
    constructor
    · intro h
      split at h
      · next huneven =>
          obtain rfl := Except.error.inj h
          obtain ⟨hkind, items, hraw, hrows⟩ := Kind.coercePresent_eq_uneven.mp huneven
          exact .uneven hkind hraw hrows
      · next hdigits =>
          obtain rfl := Except.error.inj h
          obtain ⟨hkind, s, hraw, hopens, hlist⟩ := Kind.coercePresent_eq_digits.mp hdigits
          exact .digits hkind hraw hopens hlist
      · contradiction
      · next v hv =>
          simp only [bind_eq_error, pure_ne_error, and_false, exists_false, or_false] at h
          obtain ⟨rfl, hstumbles⟩ := (broken_eq_error hspec hv).mp h
          exact .tooLarge (hcoerce.trans hv) hstumbles
    · intro h
      cases h with
      | uneven hkind hraw hrows => rw [Kind.coercePresent_eq_uneven.mpr ⟨hkind, _, hraw, hrows⟩]
      | digits hkind hraw hopens hlist => rw [Kind.coercePresent_eq_digits.mpr ⟨hkind, _, hraw, hopens, hlist⟩]
      | tooLarge hv hstumbles =>
          rw [hcoerce] at hv
          rw [hv]
          exact bind_eq_error.mpr (.inl ((broken_eq_error hspec hv).mpr ⟨rfl, hstumbles⟩))

/-! ### The palette -/

theorem wellCounted_of_decides {kind : Kind} {rules : List Rule} {required : Bool} {help : String}
    (hkind : kind.countingRule? = none) (hrules : ∀ rule ∈ rules, rule.Decides) :
    WellCounted { kind, rules, required, help } :=
  ⟨fun rule h => by rw [hkind] at h; contradiction, fun rule h => .inr (hrules rule h)⟩

/-- Integers up to the greatest bound of the palette have doubles. -/
theorem bounds_int {n : Int} (hn : 0 ≤ n ∧ n ≤ 1000000) : Rule.Decides.bounds (.int n) := by
  refine ⟨.int n, rfl, (Binary64.isSome_ofInt? n).mpr ?_⟩
  have hoverflow := Binary64.le_overflow
  omega

/-- In every schema the rule that counts the values of a kind is among the rules, and all others always decide. -/
theorem wellCounted_schema (t : LayerType) : ∀ p ∈ t.schema, p.2.WellCounted := by
  have hbounded (greatest : Int) (help : String) (required : Bool) (h : 0 ≤ greatest ∧ greatest ≤ 1000000) :
      (bounded greatest help required).WellCounted := by
    have hone : Rule.Decides.bounds (.int 1) := bounds_int (by decide)
    refine ⟨fun rule hrule => ?_, ?_⟩
    · rw [← Option.some.inj hrule]
      exact List.mem_cons_self
    · simpa [bounded, Kind.countingRule?, Rule.between, Rule.Decides] using ⟨hone, bounds_int h⟩
  have hcount (help : String) (required : Bool) : (count help required).WellCounted := by
    simp [WellCounted, count, Kind.countingRule?]
  have hsize (help : String) (required : Bool) : (size help required).WellCounted := by
    simp [WellCounted, size, Kind.countingRule?]
  have hshape (help : String) : WellCounted
      { kind := .shape, rules := [.rank (.int 1) (.int 3), .positiveIntegers], required := true, help := help } := by
    simp [WellCounted, Kind.countingRule?, Rule.Decides]
  have hchoice {all : List Value} {message : Option String} {help : String} (hall : ∀ a ∈ all, ∃ s, a = .text s) :
      WellCounted { kind := .choice, rules := [.oneOf all message], help } :=
    wellCounted_of_decides rfl (List.forall_mem_singleton.mpr hall)
  have hactivation : activation.WellCounted := hchoice exists_eq_text
  have hinitializer : initializer.WellCounted := hchoice exists_eq_text
  have hpadding : padding.WellCounted := hchoice exists_eq_text
  have hencoding (help : String) : WellCounted { kind := .choice, rules := [.encodingType], help } :=
    hchoice exists_eq_text
  have hflag (help : String) : (flag help).WellCounted :=
    wellCounted_of_decides rfl (List.forall_mem_singleton.mpr trivial)
  have hdropout (help : String) : (ParameterSpec.dropout help).WellCounted :=
    wellCounted_of_decides rfl (List.forall_mem_singleton.mpr trivial)
  have hrate (help : String) :
      WellCounted { kind := .number, rules := [.probability], required := true, help := help } :=
    wellCounted_of_decides rfl (List.forall_mem_singleton.mpr trivial)
  have hepsilon (least greatest : Binary64) (help : String) :
      WellCounted { kind := .number, rules := [.positiveNumber, .range (.float least) (.float greatest)], help := help } :=
    wellCounted_of_decides rfl (by simp [Rule.Decides, Rule.Decides.bounds, LayerConfig.number?, Number.hasDouble])
  cases t <;> simp [LayerType.schema, LayerType.denseSchema, *]

end ParameterSpec

/-! ## All parameters -/

namespace Validation

variable {schema : Schema} {params : Mapping} {f : AnalysisFault} {t : LayerType}

/-- The parameters of a schema fault with the first of them that does. -/
def Faults (schema : Schema) (params : Mapping) (f : AnalysisFault) : Prop :=
  ∃ before name spec after, schema = before ++ (name, spec) :: after ∧ spec.Faults (params.value name) f ∧
    ∀ p ∈ before, ∀ g, ¬ p.2.Faults (params.value p.1) g

theorem not_faults_nil : ¬ Faults [] params f := by
  rintro ⟨before, name, spec, after, h, _⟩
  simp at h

theorem faults_cons {name : String} {spec : ParameterSpec} :
    Faults ((name, spec) :: schema) params f ↔
      spec.Faults (params.value name) f ∨ (∀ g, ¬ spec.Faults (params.value name) g) ∧ Faults schema params f := by
  constructor
  · rintro ⟨before, name', spec', after, h, hfaults, hbefore⟩
    cases before with
    | nil =>
        obtain ⟨⟨rfl, rfl⟩, rfl⟩ : (name = name' ∧ spec = spec') ∧ schema = after := by simpa using h
        exact .inl hfaults
    | cons p before =>
        obtain ⟨rfl, rfl⟩ := List.cons.inj h
        obtain ⟨hfirst, hbefore⟩ := List.forall_mem_cons.mp hbefore
        exact .inr ⟨hfirst, before, name', spec', after, rfl, hfaults, hbefore⟩
  · rintro (hfaults | ⟨hfirst, before, name', spec', after, rfl, hfaults, hbefore⟩)
    · exact ⟨[], name, spec, schema, rfl, hfaults, nofun⟩
    · exact ⟨(name, spec) :: before, name', spec', after, rfl, hfaults, List.forall_mem_cons.mpr ⟨hfirst, hbefore⟩⟩

/-- The check of the parameters of a schema is left without an outcome exactly where they fault. -/
theorem parameters_eq_error (hschema : ∀ p ∈ schema, p.2.WellCounted) :
    parameters schema params = .error f ↔ Faults schema params f := by
  induction schema with
  | nil => simp [parameters, not_faults_nil]
  | cons entry schema ih =>
      obtain ⟨name, spec⟩ := entry
      obtain ⟨hspec, hschema⟩ := List.forall_mem_cons.mp hschema
      rw [faults_cons, ← ParameterSpec.parameter_eq_error name hspec, ← ih hschema]
      simp only [← ParameterSpec.parameter_eq_error name hspec, parameters, bind_eq_error, pure_ne_error,
        and_false, exists_false, or_false]
      cases parameter name spec (params.value name) <;> simp

/-- So is the check of a layer's parameters. -/
theorem ofParams_eq_error : ofParams t params = .error f ↔ Faults t.schema params f := by
  rw [← parameters_eq_error (ParameterSpec.wellCounted_schema t), ofParams]
  simp only [bind_eq_error, pure_ne_error, and_false, exists_false, or_false]

/-- The check of a layer's parameters never lacks one. -/
theorem ne_incomplete {name : String} : ofParams t params ≠ .error (.incomplete name) := by
  rw [Ne, ofParams_eq_error]
  rintro ⟨_, _, spec, _, _, hfaults, _⟩
  cases hfaults

end Validation

end LayerStack
