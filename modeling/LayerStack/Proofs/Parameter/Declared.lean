import LayerStack.Proofs.Number
import LayerStack.Proofs.Parameter.Complete

/-!
# LayerStack.Proofs.Parameter.Declared

Parameters that pass their check are as their schema declares them.

`ParameterSpec.Form` leaves open what number a number is.  Here it is a finite one, and its exact value lies within the
bounds that the rules declare (`Rule.Admits`).  A rule compares without rounding, so what it lets pass is within its
bounds (`admits_of_holds`), and every number of a schema is bounded on both sides, which no infinity is
(`exact_of_accepts`).  The main statement is `declared_of_valid`.
-/

namespace LayerStack

/-- The exact value of an integer or a finite double. -/
def Value.rational? (v : Value) : Option ℚ := (LayerConfig.number? v).bind Number.rational?

theorem Value.rational?_of_number? {v : Value} {x : Number} (hx : LayerConfig.number? v = some x) : v.rational? = x.rational? := by
  rw [rational?, hx]
  rfl

namespace Rule

/-- The exact values that a rule about numbers admits.  Other rules say nothing about them. -/
def Admits (rule : Rule) (q : ℚ) : Prop :=
  match rule with
  | .positiveNumber => 0 < q
  | .probability => 0 < q ∧ q < 1
  | .probabilityInclusive => 0 ≤ q ∧ q ≤ 1
  | .range least greatest => (∃ p, least.rational? = some p ∧ p ≤ q) ∧ ∃ r, greatest.rational? = some r ∧ q ≤ r
  | _ => True

/-- The bounds of a rule have exact values: only a range has bounds of its own. -/
def Exact : Rule → Prop
  | .range least greatest => least.rational?.isSome ∧ greatest.rational?.isSome
  | _ => True

/-- Does a rule bound numbers on both sides? -/
def isTwoSided : Rule → Bool
  | .probability | .probabilityInclusive | .range .. => true
  | _ => false

variable {rule : Rule} {v least greatest : Value} {x a b : Number} {q : ℚ}

theorem onNumber_of_number? {p : Number → Bool} (hx : LayerConfig.number? v = some x) : onNumber p v = p x := by
  unfold LayerConfig.number? at hx
  split at hx
  · rw [← Option.some.inj hx]
    rfl
  · rw [← Option.some.inj hx]
    rfl
  · contradiction

theorem exists_number?_of_isSome (h : v.rational?.isSome) : ∃ x p, LayerConfig.number? v = some x ∧ x.rational? = some p := by
  obtain ⟨p, hp⟩ := Option.isSome_iff_exists.mp h
  obtain ⟨x, hx, hexact⟩ := Option.bind_eq_some_iff.mp hp
  exact ⟨x, p, hx, hexact⟩

/-- A number that obeys a rule with bounds on both sides is finite. -/
theorem exact_of_holds (hexact : rule.Exact) (hsides : rule.isTwoSided) (hx : LayerConfig.number? v = some x)
    (h : rule.holds v = .ok true) : ∃ q, x.rational? = some q := by
  have hzero : Number.rational? (.int 0) = some _ := rfl
  have hone : Number.rational? (.int 1) = some _ := rfl
  have hbetween : ∃ a b p r, Number.rational? a = some p ∧ Number.rational? b = some r ∧ Number.le a x ∧ Number.le x b := by
    cases rule with
    | probability =>
        have hrate := Except.ok.inj h
        rw [onNumber_of_number? hx, Bool.and_eq_true] at hrate
        exact ⟨_, _, _, _, hzero, hone, LayerConfig.le_of_lt hrate.1, LayerConfig.le_of_lt hrate.2⟩
    | probabilityInclusive =>
        have hrate := Except.ok.inj h
        rw [onNumber_of_number? hx, Bool.and_eq_true] at hrate
        exact ⟨_, _, _, _, hzero, hone, hrate.1, hrate.2⟩
    | range least greatest =>
        obtain ⟨a, p, ha, hp⟩ := exists_number?_of_isSome hexact.1
        obtain ⟨b, r, hb, hr⟩ := exists_number?_of_isSome hexact.2
        have hrange := between_of_holds ha hb hx h
        exact ⟨a, b, p, r, hp, hr, hrange.1, hrange.2⟩
    | positiveInteger | positiveNumber | oneOf _ _ | positiveIntegers | rank _ _ | boolean | size2d => contradiction
  obtain ⟨a, b, p, r, hp, hr, hlow, hhigh⟩ := hbetween
  unfold LayerConfig.number? at hx
  split at hx
  · rw [← Option.some.inj hx]
    exact ⟨_, rfl⟩
  · rw [← Option.some.inj hx] at hlow hhigh ⊢
    exact Number.exists_exact_of_between hp hr hlow hhigh
  · contradiction

/-- What a rule lets pass, it admits by its exact value. -/
theorem admits_of_holds (hexact : rule.Exact) (hx : LayerConfig.number? v = some x) (hq : x.rational? = some q)
    (h : rule.holds v = .ok true) : rule.Admits q := by
  have hzero : Number.rational? (.int 0) = some 0 := by simp [Number.rational?, Number.ratio?]
  have hone : Number.rational? (.int 1) = some 1 := by simp [Number.rational?, Number.ratio?]
  cases rule with
  | positiveNumber =>
      have hpositive := Except.ok.inj h
      rwa [onNumber_of_number? hx, Number.lt_iff hzero hq] at hpositive
  | probability =>
      have hrate := Except.ok.inj h
      rwa [onNumber_of_number? hx, Bool.and_eq_true, Number.lt_iff hzero hq, Number.lt_iff hq hone] at hrate
  | probabilityInclusive =>
      have hrate := Except.ok.inj h
      rwa [onNumber_of_number? hx, Bool.and_eq_true, Number.le_iff hzero hq, Number.le_iff hq hone] at hrate
  | range least greatest =>
      obtain ⟨a, p, ha, hp⟩ := exists_number?_of_isSome hexact.1
      obtain ⟨b, r, hb, hr⟩ := exists_number?_of_isSome hexact.2
      have hrange := between_of_holds ha hb hx h
      rw [Number.le_iff hp hq, Number.le_iff hq hr] at hrange
      exact ⟨⟨p, (Value.rational?_of_number? ha).trans hp, hrange.1⟩, r, (Value.rational?_of_number? hb).trans hr, hrange.2⟩
  | positiveInteger | oneOf _ _ | positiveIntegers | rank _ _ | boolean | size2d => trivial

end Rule

namespace ParameterSpec

/-- A value as its parameter declares it: of the form of its kind, and a number finite and within its bounds. -/
structure Declares (spec : ParameterSpec) (v : Value) : Prop where
  form : spec.Form v
  bounds : spec.kind = .number → ∃ q, v.rational? = some q ∧ ∀ rule ∈ spec.rules, rule.Admits q

/-- The rules about a number have exact bounds, and one of them bounds it on both sides. -/
def WellBounded (spec : ParameterSpec) : Prop :=
  spec.kind = .number → (∀ rule ∈ spec.rules, rule.Exact) ∧ ∃ rule ∈ spec.rules, rule.isTwoSided

variable {spec : ParameterSpec} {v : Value}

/-- In every schema numbers are bounded on both sides. -/
theorem wellBounded_schema (t : LayerType) : ∀ p ∈ t.schema, p.2.WellBounded := by
  cases t <;>
    simp [LayerType.schema, LayerType.denseSchema, WellBounded, activation, initializer, padding, count, bounded, flag,
      size, ParameterSpec.dropout, Rule.Exact, Rule.isTwoSided]
  exact ⟨rfl, rfl⟩

/-- An accepted value is as its parameter declares it. -/
theorem declares_of_accepts (hruled : spec.WellRuled) (hbounded : spec.WellBounded) (h : spec.Accepts v) :
    spec.Declares v := by
  have hform := form_of_accepts hruled h
  refine ⟨hform, fun hkind => ?_⟩
  obtain ⟨hexact, rule, hrule, hsides⟩ := hbounded hkind
  simp only [Form, hkind] at hform
  obtain ⟨x, hx, hobeys⟩ := hform
  obtain ⟨q, hq⟩ := Rule.exact_of_holds (hexact rule hrule) hsides hx (hobeys rule hrule)
  refine ⟨q, (Value.rational?_of_number? hx).trans hq, fun rule' hrule' => ?_⟩
  exact Rule.admits_of_holds (hexact rule' hrule') hx hq (hobeys rule' hrule')

end ParameterSpec

namespace Validation

variable {t : LayerType} {schema : Schema} {name : String} {spec : ParameterSpec} {raw : Value} {params : Mapping}
  {v : Validation}

/-- The values of one parameter are under its name, at most one of them. -/
theorem names_of_parameter (h : parameter name spec raw = .ok v) : (v.values.map (·.1)).Sublist [name] := by
  cases verdict_of_parameter h with
  | missing _ | unreadable _ _ => exact List.nil_sublist _
  | read _ _ _ => exact List.Sublist.refl _

/-- The values are under names of the schema, in its order. -/
theorem names_of_parameters (h : parameters schema params = .ok v) :
    (v.values.map (·.1)).Sublist (schema.map (·.1)) := by
  induction schema generalizing v with
  | nil =>
      rw [← Except.ok.inj h]
      exact List.Sublist.slnil
  | cons entry schema ih =>
      simp only [parameters, bind_eq_ok, pure_eq_ok] at h
      obtain ⟨first, hfirst, rest, hrest, rfl⟩ := h
      have hnames := (names_of_parameter hfirst).append (ih hrest)
      simpa using hnames

theorem names_of_ofParams (h : ofParams t params = .ok v) : (v.values.map (·.1)).Sublist (t.schema.map (·.1)) := by
  simp only [ofParams, bind_eq_ok, pure_eq_ok] at h
  obtain ⟨known, hknown, rfl⟩ := h
  have hnames := names_of_parameters hknown
  exact hnames

/-- Things under names, the names taken as keys. -/
def named {β : Type} (entries : Entries String β) : Entries Value β := entries.map fun p => (.text p.1, p.2)

theorem lookup_named {β : Type} (entries : Entries String β) : (named entries).lookup (.text name) = entries.lookup name :=
  Entries.lookup_map_keys (f := Value.text) (fun _ _ => rfl) entries

/-- What is wrong about one parameter is told under its name. -/
theorem complaints_of_parameter (h : parameter name spec raw = .ok v) :
    ∃ complaints : Entries String (List Complaint), v.errors = named complaints ∧
      (complaints.map (·.1)).Sublist [name] := by
  cases verdict_of_parameter h with
  | missing _ =>
      by_cases hrequired : spec.required
      · exact ⟨[(name, [.required])], by simp [hrequired, named], List.Sublist.refl _⟩
      · exact ⟨[], by simp [hrequired, named], List.nil_sublist _⟩
  | @unreadable error _ _ => exact ⟨[(name, [.unreadable error])], rfl, List.Sublist.refl _⟩
  | @read _ failing _ _ _ =>
      cases failing with
      | nil => exact ⟨[], rfl, List.nil_sublist _⟩
      | cons rule rules => exact ⟨[(name, (rule :: rules).map .broken)], rfl, List.Sublist.refl _⟩

/-- What is wrong is told under names of the schema, in its order. -/
theorem complaints_of_parameters (h : parameters schema params = .ok v) :
    ∃ complaints : Entries String (List Complaint), v.errors = named complaints ∧
      (complaints.map (·.1)).Sublist (schema.map (·.1)) := by
  induction schema generalizing v with
  | nil =>
      rw [← Except.ok.inj h]
      exact ⟨[], rfl, List.Sublist.slnil⟩
  | cons entry schema ih =>
      simp only [parameters, bind_eq_ok, pure_eq_ok] at h
      obtain ⟨first, hfirst, rest, hrest, rfl⟩ := h
      obtain ⟨complaints, hcomplaints, hnames⟩ := complaints_of_parameter hfirst
      obtain ⟨later, hlater, hnames'⟩ := ih hrest
      refine ⟨complaints ++ later, by simp [named, hcomplaints, hlater], ?_⟩
      simpa using hnames.append hnames'

/-- What is found under a name is what came of the parameter of that name. -/
theorem lookup_of_parameters (h : parameters schema params = .ok v) (hnodup : (schema.map (·.1)).Nodup)
    (hmem : (name, spec) ∈ schema) :
    ∃ w, parameter name spec (params.value name) = .ok w ∧ v.values.lookup name = w.values.lookup name ∧
      v.errors.lookup (.text name) = w.errors.lookup (.text name) ∧ (v.errors = [] → w.errors = []) := by
  induction schema generalizing v with
  | nil => contradiction
  | cons entry schema ih =>
      obtain ⟨hhead, htail⟩ := List.nodup_cons.mp hnodup
      simp only [parameters, bind_eq_ok, pure_eq_ok] at h
      obtain ⟨first, hfirst, rest, hrest, rfl⟩ := h
      obtain ⟨complaints, hcomplaints, hnames⟩ := complaints_of_parameter hfirst
      obtain ⟨later, hlater, hnames'⟩ := complaints_of_parameters hrest
      rw [List.lookup_append, List.lookup_append, hcomplaints, hlater, lookup_named, lookup_named]
      rcases List.mem_cons.mp hmem with rfl | hmem
      · have hvalue : rest.values.lookup name = none :=
          Entries.lookup_eq_none fun hname => hhead ((names_of_parameters hrest).subset hname)
        have herror : later.lookup name = none := Entries.lookup_eq_none fun hname => hhead (hnames'.subset hname)
        refine ⟨first, hfirst, by rw [hvalue, Option.or_none], ?_, fun herrors => ?_⟩
        · rw [herror, Option.or_none, hcomplaints, lookup_named]
        · rw [hcomplaints, (List.append_eq_nil_iff.mp herrors).1]
      · have hne : ¬ name ∈ [entry.1] := fun hname =>
          hhead (List.mem_map.mpr ⟨_, hmem, List.mem_singleton.mp hname⟩)
        have hvalue : first.values.lookup name = none :=
          Entries.lookup_eq_none fun hname => hne ((names_of_parameter hfirst).subset hname)
        have herror : complaints.lookup name = none := Entries.lookup_eq_none fun hname => hne (hnames.subset hname)
        obtain ⟨w, hw, hvalues, herrors, hnone⟩ := ih hrest htail hmem
        refine ⟨w, hw, by rw [hvalue, Option.none_or, hvalues], ?_, fun hv => hnone ?_⟩
        · rw [herror, Option.none_or, ← herrors, hlater, lookup_named]
        · rw [hlater, (List.append_eq_nil_iff.mp hv).2]

/-- So no name has two values. -/
theorem nodup_values (h : ofParams t params = .ok v) : (v.values.map (·.1)).Nodup :=
  t.nodup_schema.sublist (names_of_ofParams h)

/-- Parameters with nothing wrong about them are all of the schema. -/
theorem known_of_valid (h : ofParams t params = .ok v) (hv : v.isValid) :
    ∀ p ∈ params, ∃ name, p.1 = .text name ∧ (t.schema.lookup name).isSome := by
  simp only [ofParams, bind_eq_ok, pure_eq_ok] at h
  obtain ⟨known, _, rfl⟩ := h
  simp only [isValid, List.isEmpty_iff, List.append_eq_nil_iff] at hv
  have hunknown : params.filter (fun p => !(unknown.isKnown t p.1)) = [] := List.map_eq_nil_iff.mp hv.1
  intro p hp
  have hknown : unknown.isKnown t p.1 = true := by simpa using List.filter_eq_nil_iff.mp hunknown p hp
  unfold unknown.isKnown at hknown
  split at hknown
  · next name hname => exact ⟨name, hname, hknown⟩
  · contradiction

/-- What passes its check is well typed.  Every value is as its parameter declares it: an integer of at least one and
within its range, a list of one to three of these, one of them or a list of two, a finite number within its bounds, a
boolean, or one of the texts it may be.  No name has two values, every required parameter has one, and none of the
parameters that were given is outside the schema. -/
theorem declared_of_valid (h : ofParams t params = .ok v) (hv : v.isValid) :
    (∀ p ∈ v.values, ∃ spec, (p.1, spec) ∈ t.schema ∧ spec.Declares p.2) ∧
      (v.values.map (·.1)).Nodup ∧
      (∀ p ∈ t.schema, p.2.required → v.values.has p.1) ∧
      ∀ p ∈ params, ∃ name, p.1 = .text name ∧ (t.schema.lookup name).isSome := by
  obtain ⟨haccepts, hrequired⟩ := accepts_of_valid h hv
  refine ⟨fun p hp => ?_, nodup_values h, hrequired, known_of_valid h hv⟩
  obtain ⟨spec, hmem, hspec⟩ := haccepts p hp
  have hruled := ParameterSpec.wellRuled_schema t _ hmem
  have hbounded := ParameterSpec.wellBounded_schema t _ hmem
  exact ⟨spec, hmem, ParameterSpec.declares_of_accepts hruled hbounded hspec⟩

/-- Parameters of attention as a form sends them: numerals with blanks, a whole double, a rate. -/
def typed : Mapping := [
  (.text "numHeads", .text " 2 "), (.text "keyDim", .float (.ofDecimal false 80 (-1))), (.text "dropout", .text "0.25")]

/-- They pass as two integers and a number, which are what the schema declares. -/
theorem declared_of_typed :
    ∃ v, ofParams .multiHeadAttention typed = .ok v ∧ v.isValid ∧ v.values.map (·.1) = ["numHeads", "keyDim", "dropout"] ∧
      ∀ p ∈ v.values, ∃ spec, (p.1, spec) ∈ LayerType.multiHeadAttention.schema ∧ spec.Declares p.2 := by
  obtain ⟨v, hv, hvalid, hnames⟩ : ∃ v, ofParams .multiHeadAttention typed = .ok v ∧ v.isValid ∧
      v.values.map (·.1) = ["numHeads", "keyDim", "dropout"] := ⟨_, rfl, rfl, rfl⟩
  exact ⟨v, hv, hvalid, hnames, (declared_of_valid hv hvalid).1⟩

end Validation

end LayerStack
