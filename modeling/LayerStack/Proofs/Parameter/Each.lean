import LayerStack.Proofs.Parameter.Declared

/-!
# LayerStack.Proofs.Parameter.Each

The check of a layer's parameters, taken apart by their names.

What is recorded under a name depends on what was given under it and on nothing else (`lookup_congr`): either the name is of
the schema, and then the check of this one parameter decides (`lookup_of_known`), or it is not (`lookup_of_unknown`).  So it
is what would be recorded if nothing else had been given, and that check comes to an outcome if the whole one does
(`exists_of_fewer`).  `Validation.Exhaustive` puts together all that a check records, `exhaustive_of_ofParams` proves it of
every check that comes to an outcome.
-/

namespace LayerStack

/-- A text is equal to itself and to nothing else. -/
theorem Value.text_beq {s : String} {v : Value} : (Value.text s == v) = true ↔ v = .text s := by
  constructor
  · intro h
    have hsame : ((Value.text s).same? v).getD false = true := h
    cases hv : (Value.text s).same? v with
    | none => simp [hv] at hsame
    | some same =>
        obtain rfl : same = true := by simpa [hv] using hsame
        exact Rule.eq_text_of_same? hv
  · rintro rfl
    exact beq_self_eq_true s

/-- And nothing else is equal to it. -/
theorem Value.beq_text {s : String} {v : Value} : (v == Value.text s) = true ↔ v = .text s := by
  constructor
  · intro h
    have hsame : (v.same? (.text s)).getD false = true := h
    cases v with
    | text t =>
        have htext : (t == s) = true := h
        rw [beq_iff_eq.mp htext]
    | list items | row items | mapping entries => simp [same?] at hsame
    | absent | bool b | int n | float x | scalar x | array items =>
        simp only [same?, samePlain?, samePlain, compare?, paired?, quantity?, unboxed, number?] at hsame
        split at hsame <;> simp at hsame
  · rintro rfl
    exact beq_self_eq_true s

/-- A text finds the first entry under it. -/
theorem Entries.lookup_text_self {β : Type} (s : String) (b : β) (entries : Entries Value β) :
    List.lookup (Value.text s) ((Value.text s, b) :: entries) = some b := by
  rw [List.lookup_cons, Value.text_beq.mpr rfl]

namespace Mapping

variable {name other : String} {key raw : Value}

/-- One entry has a value under its own name only. -/
theorem find?_singleton : find? [(.text name, raw)] other = if other = name then some raw else none := by
  by_cases h : other = name
  · rw [if_pos h, h]
    exact Entries.lookup_text_self name raw []
  · have hne : (Value.text other == Value.text name) = false := by
      rw [← Bool.not_eq_true, Value.text_beq, Value.text.injEq]
      exact Ne.symm h
    rw [if_neg h, find?, List.lookup_cons, hne]
    rfl

/-- A name is among the keys exactly where it has a value. -/
theorem has_text {params : Mapping} : params.has (.text name) ↔ (params.find? name).isSome := by
  rw [Entries.has, List.any_eq_true, find?, List.lookup_isSome_iff]
  simp only [Value.beq_text, Value.text_beq]

/-- What is put under a name is found under it, and nothing else is found otherwise. -/
theorem find?_put {params : Mapping} {v : Value} :
    find? (params.put (.text name) v) other = if other = name then some v else params.find? other := by
  have hreplaced : find? (params.map fun p => (p.1, if p.1 == .text name then v else p.2)) other =
      (params.find? other).map fun w => if other = name then v else w := by
    induction params with
    | nil => rfl
    | cons entry params ih =>
        rw [find?, find?, List.map_cons, List.lookup_cons, List.lookup_cons]
        cases hkey : Value.text other == entry.1 with
        | true =>
            have hsame : (entry.1 == Value.text name) = (other == name) := by rw [Value.text_beq.mp hkey]; rfl
            simp [hsame]
        | false => exact ih
  by_cases hhas : params.has (.text name)
  · obtain ⟨w, hw⟩ := Option.isSome_iff_exists.mp (has_text.mp hhas)
    rw [Entries.put_of_has hhas, hreplaced]
    by_cases hname : other = name
    · simp [hname, hw]
    · simp [hname]
  · have hnone : params.find? name = none := by simpa [has_text] using hhas
    have hlast : find? [(.text name, v)] other = if other = name then some v else none := find?_singleton
    rw [Entries.put_of_not_has hhas, find?, List.lookup_append, ← find?, ← find?, hlast]
    by_cases hname : other = name
    · simp [hname, hnone]
    · simp [hname]

/-- An entry under no name has none under any. -/
theorem find?_unnamed (hkey : ∀ n, key ≠ .text n) : find? [(key, raw)] name = none := by
  have hne : (Value.text name == key) = false := by
    rw [← Bool.not_eq_true, Value.text_beq]
    exact hkey name
  rw [find?, List.lookup_cons, hne]
  rfl

end Mapping

namespace Validation

variable {t : LayerType} {schema : Schema} {name : String} {spec : ParameterSpec} {raw key : Value} {params params' : Mapping}
  {v w : Validation}

/-! ## Unknown parameters -/

theorem unknown_cons (entry : Value × Value) :
    unknown t (entry :: params) =
      if unknown.isKnown t entry.1 then unknown t params else (entry.1, [.unknown t]) :: unknown t params := by
  by_cases h : unknown.isKnown t entry.1 <;> simp [unknown, h]

/-- A name is found among the unknown ones if it was given and the schema lacks it. -/
theorem lookup_unknown :
    (unknown t params).lookup (.text name) =
      if (t.schema.lookup name).isSome then none else (params.find? name).map fun _ => [.unknown t] := by
  induction params with
  | nil => simp [unknown, Mapping.find?]
  | cons entry params ih =>
      rw [unknown_cons, Mapping.find?, List.lookup_cons]
      cases hkey : Value.text name == entry.1 with
      | true =>
          obtain ⟨key, raw⟩ := entry
          obtain rfl : key = .text name := Value.text_beq.mp hkey
          have hknown : unknown.isKnown t (.text name) = (t.schema.lookup name).isSome := rfl
          rw [hknown]
          by_cases hspec : (t.schema.lookup name).isSome
          · rw [if_pos hspec] at ih ⊢
            rw [if_pos hspec, ih]
          · rw [if_neg hspec, if_neg hspec, Entries.lookup_text_self]
            rfl
      | false =>
          have hrest : (unknown t (entry :: params)).lookup (.text name) = (unknown t params).lookup (.text name) := by
            rw [unknown_cons]
            split
            · rfl
            · rw [List.lookup_cons, hkey]
          rw [← unknown_cons, hrest, ih]
          rfl

/-! ## One name -/

theorem ofParams_eq_ok :
    ofParams t params = .ok v ↔
      ∃ known, parameters t.schema params = .ok known ∧ v = ⟨unknown t params ++ known.errors, known.values⟩ := by
  simp only [ofParams, bind_eq_ok, pure_eq_ok, @eq_comm _ v]

/-- Under a name of the schema stands what came of the check of this parameter. -/
theorem lookup_of_known (h : ofParams t params = .ok v) (hspec : t.schema.lookup name = some spec) :
    ∃ w, parameter name spec (params.value name) = .ok w ∧ v.values.lookup name = w.values.lookup name ∧
      v.errors.lookup (.text name) = w.errors.lookup (.text name) := by
  obtain ⟨known, hknown, rfl⟩ := ofParams_eq_ok.mp h
  obtain ⟨w, hw, hvalues, herrors, _⟩ := lookup_of_parameters hknown t.nodup_schema (Entries.mem_of_lookup hspec)
  refine ⟨w, hw, hvalues, ?_⟩
  rw [List.lookup_append, lookup_unknown, hspec, ← herrors]
  rfl

/-- Under another name stands that it is unknown, if it was given, and no value. -/
theorem lookup_of_unknown (h : ofParams t params = .ok v) (hspec : t.schema.lookup name = none) :
    v.values.lookup name = none ∧ v.errors.lookup (.text name) = (params.find? name).map fun _ => [.unknown t] := by
  obtain ⟨known, hknown, rfl⟩ := ofParams_eq_ok.mp h
  have hname : name ∉ t.schema.map (·.1) := by
    intro hmem
    obtain ⟨p, hp, rfl⟩ := List.mem_map.mp hmem
    simp [Entries.lookup_of_mem t.nodup_schema hp] at hspec
  obtain ⟨complaints, hcomplaints, hnames⟩ := complaints_of_parameters hknown
  have hnone : known.errors.lookup (.text name) = none := by
    rw [hcomplaints, lookup_named]
    exact Entries.lookup_eq_none fun hmem => hname (hnames.subset hmem)
  constructor
  · exact Entries.lookup_eq_none fun hmem => hname ((names_of_parameters hknown).subset hmem)
  · rw [List.lookup_append, hnone, Option.or_none, lookup_unknown, hspec]
    rfl

/-- What is recorded under a name depends on what was given under it and on nothing else. -/
theorem lookup_congr (h : ofParams t params = .ok v) (h' : ofParams t params' = .ok w)
    (hgiven : params.find? name = params'.find? name) :
    v.values.lookup name = w.values.lookup name ∧ v.errors.lookup (.text name) = w.errors.lookup (.text name) := by
  cases hspec : t.schema.lookup name with
  | none =>
      obtain ⟨hvalue, herror⟩ := lookup_of_unknown h hspec
      obtain ⟨hvalue', herror'⟩ := lookup_of_unknown h' hspec
      exact ⟨hvalue.trans hvalue'.symm, by rw [herror, herror', hgiven]⟩
  | some spec =>
      obtain ⟨u, hu, hvalue, herror⟩ := lookup_of_known h hspec
      obtain ⟨u', hu', hvalue', herror'⟩ := lookup_of_known h' hspec
      have hraw : params.value name = params'.value name := congrArg (·.getD .absent) hgiven
      obtain rfl : u = u' := by
        rw [hraw, hu'] at hu
        exact (Except.ok.inj hu).symm
      exact ⟨hvalue.trans hvalue'.symm, herror.trans herror'.symm⟩

/-! ## Fewer parameters -/

/-- The check of all parameters comes to an outcome where the check of each does. -/
theorem exists_parameters :
    (∃ v, parameters schema params = .ok v) ↔ ∀ p ∈ schema, ∃ w, parameter p.1 p.2 (params.value p.1) = .ok w := by
  induction schema with
  | nil => exact ⟨fun _ => nofun, fun _ => ⟨_, rfl⟩⟩
  | cons entry schema ih =>
      simp only [List.forall_mem_cons, ← ih, parameters, bind_eq_ok, pure_eq_ok]
      constructor
      · rintro ⟨_, first, hfirst, rest, hrest, _⟩
        exact ⟨⟨first, hfirst⟩, rest, hrest⟩
      · rintro ⟨⟨first, hfirst⟩, rest, hrest⟩
        exact ⟨_, first, hfirst, rest, hrest, rfl⟩

/-- So does the check of a layer, whatever is unknown. -/
theorem exists_ofParams :
    (∃ v, ofParams t params = .ok v) ↔ ∀ p ∈ t.schema, ∃ w, parameter p.1 p.2 (params.value p.1) = .ok w := by
  rw [← exists_parameters]
  constructor
  · rintro ⟨v, hv⟩
    obtain ⟨known, hknown, _⟩ := ofParams_eq_ok.mp hv
    exact ⟨known, hknown⟩
  · rintro ⟨known, hknown⟩
    exact ⟨_, ofParams_eq_ok.mpr ⟨known, hknown, rfl⟩⟩

/-- A check that comes to an outcome still does if some of the parameters are not given. -/
theorem exists_of_fewer (h : ofParams t params = .ok v)
    (hgiven : ∀ n, params'.value n = params.value n ∨ params'.value n = .absent) : ∃ w, ofParams t params' = .ok w := by
  refine exists_ofParams.mpr fun p hp => ?_
  rcases hgiven p.1 with hsame | habsent
  · rw [hsame]
    exact exists_ofParams.mp ⟨v, h⟩ p hp
  · rw [habsent]
    exact ⟨_, rfl⟩

/-- Of a name that was given is recorded what would be if nothing else had been given. -/
theorem lookup_alone (h : ofParams t params = .ok v) (hraw : params.find? name = some raw) :
    ∃ w, ofParams t [(.text name, raw)] = .ok w ∧ v.values.lookup name = w.values.lookup name ∧
      v.errors.lookup (.text name) = w.errors.lookup (.text name) := by
  have hgiven : ∀ n, Mapping.value [(.text name, raw)] n = params.value n ∨
      Mapping.value [(.text name, raw)] n = .absent := by
    intro n
    rw [Mapping.value, Mapping.find?_singleton]
    by_cases hn : n = name
    · subst hn
      exact .inl (by simp [Mapping.value, hraw])
    · exact .inr (by simp [hn])
  obtain ⟨w, hw⟩ := exists_of_fewer h hgiven
  exact ⟨w, hw, lookup_congr h hw (by simp [hraw, Mapping.find?_singleton])⟩

/-- A key that is no name is unknown, among the others and alone. -/
theorem unknown_of_unnamed (h : ofParams t params = .ok v) (hmem : (key, raw) ∈ params) (hkey : ∀ n, key ≠ .text n) :
    (key, [.unknown t]) ∈ v.errors ∧ ∃ w, ofParams t [(key, raw)] = .ok w ∧ (key, [.unknown t]) ∈ w.errors := by
  have hunknown : unknown.isKnown t key = false := by
    cases key with
    | text n => exact absurd rfl (hkey n)
    | absent | bool b | int n | float x | list items | row items | mapping entries | scalar s | array items => rfl
  have hentry {all : Mapping} (hall : (key, raw) ∈ all) : (key, [.unknown t]) ∈ unknown t all :=
    List.mem_map.mpr ⟨_, List.mem_filter.mpr ⟨hall, by simp [hunknown]⟩, rfl⟩
  have hnone (n : String) : Mapping.value [(key, raw)] n = .absent := by
    rw [Mapping.value, Mapping.find?_unnamed hkey]
    rfl
  obtain ⟨w, hw⟩ := exists_of_fewer h fun n => .inr (hnone n)
  refine ⟨?_, w, hw, ?_⟩
  · obtain ⟨known, _, rfl⟩ := ofParams_eq_ok.mp h
    exact List.mem_append_left _ (hentry hmem)
  · obtain ⟨known, _, rfl⟩ := ofParams_eq_ok.mp hw
    exact List.mem_append_left _ (hentry (List.mem_singleton_self _))

/-! ## One parameter among the others -/

/-- Which keys are unknown depends on the keys alone. -/
theorem unknown_congr (h : params.map (·.1) = params'.map (·.1)) : unknown t params = unknown t params' := by
  have hkeys (all : Mapping) : unknown t all =
      ((all.map (·.1)).filter fun key => !unknown.isKnown t key).map fun key => (key, [.unknown t]) := by
    rw [List.filter_map, List.map_map]
    rfl
  rw [hkeys, hkeys, h]

/-- The check of some parameters depends on what was given under their names. -/
theorem parameters_congr (h : ∀ p ∈ schema, params.value p.1 = params'.value p.1) :
    parameters schema params = parameters schema params' := by
  induction schema with
  | nil => rfl
  | cons entry schema ih =>
      obtain ⟨hfirst, hrest⟩ := List.forall_mem_cons.mp h
      rw [parameters, parameters, hfirst, ih hrest]

theorem parameters_append {first rest : Schema} :
    parameters (first ++ rest) params = do
      let a ← parameters first params
      let b ← parameters rest params
      return ⟨a.errors ++ b.errors, a.values ++ b.values⟩ := by
  induction first with
  | nil =>
      rw [List.nil_append, parameters]
      cases parameters rest params <;> rfl
  | cons entry first ih =>
      rw [List.cons_append, parameters, parameters, ih]
      cases parameter entry.1 entry.2 (params.value entry.1) with
      | error f => rfl
      | ok head =>
          cases parameters first params with
          | error f => rfl
          | ok a =>
              cases parameters rest params with
              | error f => rfl
              | ok b => simp [bind, Except.bind, pure, Except.pure]

/-- What is put under a name of the schema has a part in the check of its own parameter and in no other, whatever else was
given. -/
theorem ofParams_put (hmem : (name, spec) ∈ t.schema) (params : Mapping) :
    ∃ (strange : Entries Value (List Complaint)) (ahead behind : Except AnalysisFault Validation),
      (∀ a, ahead = .ok a → name ∉ a.values.map (·.1)) ∧ (∀ b, behind = .ok b → name ∉ b.values.map (·.1)) ∧
        ∀ raw, ofParams t (params.put (.text name) raw) = do
          let a ← ahead
          let w ← parameter name spec raw
          let b ← behind
          return ⟨strange ++ (a.errors ++ (w.errors ++ b.errors)), a.values ++ (w.values ++ b.values)⟩ := by
  obtain ⟨before, after, hschema⟩ := List.append_of_mem hmem
  have hnodup := t.nodup_schema
  rw [hschema, List.map_append, List.map_cons, List.nodup_middle, List.nodup_cons, List.mem_append, not_or] at hnodup
  obtain ⟨⟨hbefore, hafter⟩, _⟩ := hnodup
  have hother (part : Schema) (hpart : name ∉ part.map (·.1)) (raw : Value) :
      parameters part (params.put (.text name) raw) = parameters part params := by
    refine parameters_congr fun p hp => ?_
    have hne : p.1 ≠ name := by
      rintro rfl
      exact hpart (List.mem_map.mpr ⟨p, hp, rfl⟩)
    rw [Mapping.value, Mapping.find?_put, if_neg hne, ← Mapping.value]
  refine ⟨unknown t (params.put (.text name) .absent), parameters before params, parameters after params,
    fun a ha hname => hbefore ((names_of_parameters ha).subset hname),
    fun b hb hname => hafter ((names_of_parameters hb).subset hname), fun raw => ?_⟩
  have hself : Mapping.value (params.put (.text name) raw) name = raw := by
    rw [Mapping.value, Mapping.find?_put, if_pos rfl]
    rfl
  rw [ofParams, hschema, parameters_append, parameters, hother before hbefore, hother after hafter, hself,
    unknown_congr (Entries.keys_put params (.text name) raw .absent)]
  cases parameters before params with
  | error f => rfl
  | ok a =>
      cases parameter name spec raw with
      | error f => rfl
      | ok w => cases parameters after params <;> rfl

/-! ## What is recorded -/

/-- The complaints about a name, in words. -/
theorem lookup_messages : v.messages.lookup key = (v.errors.lookup key).map (·.map (·.message)) :=
  Entries.lookup_map_values v.errors _

theorem messages_eq_nil : v.messages = [] ↔ v.isValid := by
  rw [messages, List.map_eq_nil_iff, isValid, List.isEmpty_iff]

/-- Reasons are told if there are any. -/
def told (reasons : List String) : Option (List String) := if reasons.isEmpty then none else some reasons

/-- A parameter that was not given has no value, and it is wrong to leave it out where it is required. -/
theorem lookup_of_missing (h : parameter name spec raw = .ok v) (hmissing : raw.isMissing = true) :
    v.values.lookup name = none ∧
      v.messages.lookup (.text name) = told (if spec.required then ["This field is required"] else []) := by
  cases verdict_of_parameter h with
  | missing _ =>
      refine ⟨rfl, ?_⟩
      rw [lookup_messages]
      by_cases hrequired : spec.required
      · rw [if_pos hrequired, if_pos hrequired, Entries.lookup_text_self]
        rfl
      · rw [if_neg hrequired, if_neg hrequired]
        rfl
  | unreadable hpresent _ | read hpresent _ _ => simp [hmissing] at hpresent

/-- Of a parameter that was given the one reason it cannot be read for is told, or its value and every rule that this
breaks. -/
theorem lookup_of_present (h : parameter name spec raw = .ok v) (hpresent : raw.isMissing = false) :
    (∃ error, spec.kind.coerce raw = .error error ∧ v.values.lookup name = none ∧
        v.messages.lookup (.text name) = some [error.message]) ∨
      ∃ value, spec.kind.coerce raw = .ok value ∧ v.values.lookup name = some value ∧
        (∀ rule ∈ spec.rules, ∃ obeyed, rule.holds value = .ok obeyed) ∧
        v.messages.lookup (.text name) = told ((spec.rules.filter (·.refuses value)).map (·.message)) := by
  cases verdict_of_parameter h with
  | missing hmissing => simp [hpresent] at hmissing
  | @unreadable error _ herror =>
      refine .inl ⟨error, herror, rfl, ?_⟩
      rw [lookup_messages, Entries.lookup_text_self]
      rfl
  | @read value failing _ hvalue hfailing =>
      obtain ⟨hdecided, rfl⟩ := Rule.broken_eq_ok.mp hfailing
      refine .inr ⟨value, hvalue, List.lookup_cons_self, hdecided, ?_⟩
      rw [lookup_messages]
      cases spec.rules.filter (·.refuses value) with
      | nil =>
          rw [List.isEmpty_nil, if_pos rfl, List.lookup_nil]
          rfl
      | cons rule rules =>
          rw [List.isEmpty_cons, if_neg Bool.false_ne_true, Entries.lookup_text_self, Option.map_some, List.map_map]
          rfl

/-- All that the check of a layer's parameters records. -/
structure Exhaustive (t : LayerType) (params : Mapping) (v : Validation) : Prop where
  /-- Under a name that was given stands what would stand there if nothing else had been given. -/
  alone : ∀ name raw, params.find? name = some raw →
    ∃ w, ofParams t [(.text name, raw)] = .ok w ∧ v.values.lookup name = w.values.lookup name ∧
      v.messages.lookup (.text name) = w.messages.lookup (.text name)
  /-- What was given under no name is wrong, and would be by itself. -/
  unnamed : ∀ key raw, (key, raw) ∈ params → (∀ n, key ≠ .text n) →
    (key, [(Complaint.unknown t).message]) ∈ v.messages ∧
      ∃ w, ofParams t [(key, raw)] = .ok w ∧ (key, [(Complaint.unknown t).message]) ∈ w.messages
  /-- A parameter that was not given has no value, and is told only if it is required. -/
  missing : ∀ name spec, (name, spec) ∈ t.schema → (params.value name).isMissing = true →
    v.values.lookup name = none ∧
      v.messages.lookup (.text name) = told (if spec.required then ["This field is required"] else [])
  /-- A parameter that was given has the one reason it cannot be read for, or a value and the messages of all rules that
  refuse it, in the order of the rules. -/
  present : ∀ name spec, (name, spec) ∈ t.schema → (params.value name).isMissing = false →
    (∃ error, spec.kind.coerce (params.value name) = .error error ∧ v.values.lookup name = none ∧
        v.messages.lookup (.text name) = some [error.message]) ∨
      ∃ value, spec.kind.coerce (params.value name) = .ok value ∧ v.values.lookup name = some value ∧
        (∀ rule ∈ spec.rules, ∃ obeyed, rule.holds value = .ok obeyed) ∧
        v.messages.lookup (.text name) = told ((spec.rules.filter (·.refuses value)).map (·.message))
  /-- Unknown keys come first, in the order in which they were given, then names of the schema, in its order. -/
  order : ∃ complaints : Entries String (List String),
    v.messages = (params.filter fun p => !unknown.isKnown t p.1).map (fun p => (p.1, [(Complaint.unknown t).message])) ++
        named complaints ∧
      (complaints.map (·.1)).Sublist (t.schema.map (·.1))
  /-- Values are under names of the schema only, in its order. -/
  values : (v.values.map (·.1)).Sublist (t.schema.map (·.1))
  /-- Where nothing is wrong the parameters are valid, and only there. -/
  valid : v.isValid ↔ v.messages = []

/-- The unknown keys come first, then what is wrong about the schema's parameters. -/
theorem messages_of_ofParams (h : ofParams t params = .ok v) :
    ∃ complaints : Entries String (List String),
      v.messages = (params.filter fun p => !unknown.isKnown t p.1).map (fun p => (p.1, [(Complaint.unknown t).message])) ++
          named complaints ∧
        (complaints.map (·.1)).Sublist (t.schema.map (·.1)) := by
  obtain ⟨known, hknown, rfl⟩ := ofParams_eq_ok.mp h
  obtain ⟨complaints, hcomplaints, hnames⟩ := complaints_of_parameters hknown
  refine ⟨complaints.map fun p => (p.1, p.2.map (·.message)), ?_, by simpa [Function.comp_def] using hnames⟩
  simp [messages, unknown, hcomplaints, named, Function.comp_def]

/-- Checking is exhaustive, and parameter by parameter. -/
theorem exhaustive_of_ofParams (h : ofParams t params = .ok v) : Exhaustive t params v where
  alone name raw hraw := by
    obtain ⟨w, hw, hvalues, herrors⟩ := lookup_alone h hraw
    exact ⟨w, hw, hvalues, by rw [lookup_messages, lookup_messages, herrors]⟩
  unnamed key raw hmem hkey := by
    have hmessage {u : Validation} (hu : (key, [.unknown t]) ∈ u.errors) :
        (key, [(Complaint.unknown t).message]) ∈ u.messages := List.mem_map.mpr ⟨_, hu, rfl⟩
    obtain ⟨hv, w, hw, hw'⟩ := unknown_of_unnamed h hmem hkey
    exact ⟨hmessage hv, w, hw, hmessage hw'⟩
  missing name spec hmem hmissing := by
    obtain ⟨w, hw, hvalues, herrors⟩ := lookup_of_known h (Entries.lookup_of_mem t.nodup_schema hmem)
    rw [hvalues, lookup_messages, herrors, ← lookup_messages]
    exact lookup_of_missing hw hmissing
  present name spec hmem hpresent := by
    obtain ⟨w, hw, hvalues, herrors⟩ := lookup_of_known h (Entries.lookup_of_mem t.nodup_schema hmem)
    rw [hvalues, lookup_messages, herrors, ← lookup_messages]
    exact lookup_of_present hw hpresent
  order := messages_of_ofParams h
  values := names_of_ofParams h
  valid := messages_eq_nil.symm

/-- Parameters of attention with much wrong about them: a name it has not, a flag that cannot be read, no heads and no
width of the keys. -/
def muddled : Mapping := [(.text "colour", .text "red"), (.text "useBias", .text "maybe"), (.text "numHeads", .int 0)]

/-- All of it is told, the two rules that the heads break among it. -/
theorem exhaustive_of_muddled :
    ∃ v, ofParams .multiHeadAttention muddled = .ok v ∧ Exhaustive .multiHeadAttention muddled v ∧
      v.messages = [
        (.text "colour", ["Unknown parameter for multiHeadAttention layer"]),
        (.text "numHeads", ["Must be a positive integer", "Must be between 1 and 32"]),
        (.text "keyDim", ["This field is required"]),
        (.text "useBias", ["Must be true or false"])] :=
  ⟨_, rfl, exhaustive_of_ofParams rfl, rfl⟩

end Validation

end LayerStack
