import LayerStack.Proofs.Binary64.Nearest
import LayerStack.Proofs.Binary64.Numeral
import LayerStack.Proofs.Parameter.Each
import LayerStack.Proofs.Parameter.Fault

/-!
# LayerStack.Proofs.Parameter.Spelled

Counts given as text, beside the same counts given as integers.

A text is read as a double.  So the text of a positive integer is coerced to the double nearest to it
(`Kind.coerce_spelled`), which is another integer where the number has more than 53 bits and does not end in enough zeros.
No rule of the palette sees the difference, since all bounds are far below the least of these numbers
(`Rule.broken_nearest`): the text passes the check where the integer does, with the same complaints.  What differs is the
value (`check_of_spelled`).
-/

namespace LayerStack

open Binary64 (IsExact nearest overflow)

/-- The kinds of counts: integers by themselves or as sizes. -/
def Kind.isCount : Kind → Bool
  | .int | .size => true
  | .number | .bool | .choice | .shape => false

variable {kind : Kind} {n : Nat} {left right : String}

/-! ## Coercion -/

namespace Kind

/-- An integer is coerced to itself. -/
theorem coerce_int (hkind : kind.isCount) (n : Int) : kind.coerce (.int n) = .ok (.int n) := by
  cases kind with
  | int | size => rfl
  | number | bool | choice | shape => contradiction

/-- The text of a positive integer short of the range is coerced to the double nearest to the integer. -/
theorem coerce_spelled (hkind : kind.isCount) (hpos : 1 ≤ n) (hn : n < overflow)
    (hleft : ∀ c ∈ left.toList, Text.isBlank c) (hright : ∀ c ∈ right.toList, Text.isBlank c) :
    kind.coerce (.text (left ++ toString n ++ right)) = .ok (.int (nearest n)) := by
  have hread := Numeral.read?_toString (n := n) hleft hright
  have hstrip := Numeral.strip_toString (n := n) hleft hright
  generalize left ++ toString n ++ right = s at hread hstrip
  have hpresent : ¬ (Value.text s).isMissing = true := by
    intro hmissing
    obtain rfl : s = "" := by simpa [Value.isMissing] using hmissing
    contradiction
  have hnumber : readNumber s = .ok (.float (.ofInt n)) := by rw [readNumber, hread]
  have hwhole : ofBinary64 (.ofInt n) = .int (nearest n) := by
    rw [ofBinary64, Binary64.toInt?_ofInt (by omega) hn]
  rw [coerce, if_neg hpresent]
  cases kind with
  | number | bool | choice | shape => contradiction
  | int =>
      simp only [coercePresent, hnumber]
      exact congrArg Except.ok hwhole
  | size =>
      have hdigit : (Text.strip s.toList).head? ≠ some '[' := by
        rw [hstrip]
        intro hhead
        exact absurd (Numeral.isDigit_of_toDigits _ (List.mem_of_head? hhead)) (by decide)
      have hsize : readSize .size s = .ok (.float (.ofInt n)) := by
        simp only [readSize, if_neg hdigit, hnumber]
        rfl
      simp only [coercePresent, hsize]
      exact congrArg Except.ok hwhole

end Kind

/-! ## Rules -/

namespace Rule

/-- A rule about counts: that they are positive, or that they are from one to some bound of the palette. -/
def Counts (rule : Rule) : Prop :=
  rule = .positiveInteger ∨ rule = .size2d ∨ ∃ greatest : Int, greatest ≤ 1000000 ∧ rule = .between 1 greatest

/-- An integer is compared with integer bounds as it is. -/
theorem holds_between_int (least greatest n : Int) :
    (between least greatest).holds (.int n) = .ok (decide (least ≤ n ∧ n ≤ greatest)) := by
  have hle (a b : Int) : isAtMost (.int a) (.int b) = .ok (decide (a ≤ b)) := by
    rw [isAtMost_of_number? (x := .int a) (y := .int b) rfl rfl, Except.ok.injEq, Bool.eq_iff_iff, Number.le_int,
      decide_eq_true_eq]
  have hnumber : (Value.int n).number?.isSome = true := rfl
  rw [between, holds, if_pos hnumber, isBetween, hle, hle]
  by_cases hlow : least ≤ n <;> simp [hlow, bind, Except.bind, pure, Except.pure]

/-- No rule about counts tells a positive integer from the double nearest to it: up to the bounds they are the same, and past
the bounds both are. -/
theorem holds_nearest {rule : Rule} (hrule : rule.Counts) (hpos : 1 ≤ n) (hn : n < overflow) :
    rule.holds (.int (nearest n)) = rule.holds (.int n) := by
  have hn0 : n ≠ 0 := by omega
  have hlarge : nearest n = n ∨ 2 ^ 53 ≤ n ∧ 2 ^ 53 ≤ nearest n := by
    rcases Nat.le_total n (2 ^ 53) with hle | hle
    · exact .inl ((Binary64.nearest_eq_self_iff hn0).mpr (Binary64.isExact_of_le hle))
    · exact .inr ⟨hle, Binary64.le_nearest hle⟩
  have hpositive (m : Nat) (hm : 1 ≤ m) (hrange : m < overflow) : isPositiveInteger (.int m) = .ok true := by
    have hone : (1 : Int) ≤ m := by exact_mod_cast hm
    rw [isPositiveInteger_int, Int.natAbs_natCast, if_pos hrange, decide_eq_true hone]
  have hnearest : isPositiveInteger (.int (nearest n)) = isPositiveInteger (.int n) := by
    rw [hpositive n hpos hn, hpositive (nearest n) (by omega) (Binary64.nearest_lt_overflow hn0 hn)]
  rcases hrule with rfl | rfl | ⟨greatest, hgreatest, rfl⟩
  · exact hnearest
  · exact hnearest
  · rw [holds_between_int, holds_between_int, Except.ok.injEq, Bool.eq_iff_iff, decide_eq_true_eq, decide_eq_true_eq]
    omega

/-- So they break the same rules. -/
theorem broken_nearest {rules : List Rule} (hrules : ∀ rule ∈ rules, rule.Counts) (hpos : 1 ≤ n) (hn : n < overflow) :
    broken rules (.int (nearest n)) = broken rules (.int n) := by
  induction rules with
  | nil => rfl
  | cons rule rules ih =>
      obtain ⟨hrule, hrules⟩ := List.forall_mem_cons.mp hrules
      rw [broken, broken, holds_nearest hrule hpos hn, ih hrules]

end Rule

namespace ParameterSpec

/-- The rules of a count are about counts. -/
def CountsByRules (spec : ParameterSpec) : Prop := spec.kind.isCount → ∀ rule ∈ spec.rules, rule.Counts

/-- In every schema the rules of counts are about counts. -/
theorem countsByRules_schema (t : LayerType) : ∀ p ∈ t.schema, p.2.CountsByRules := by
  have hbounded (greatest : Int) (help : String) (required : Bool) (h : greatest ≤ 1000000) :
      (bounded greatest help required).CountsByRules := fun _ =>
    List.forall_mem_cons.mpr ⟨.inl rfl, List.forall_mem_singleton.mpr (.inr (.inr ⟨greatest, h, rfl⟩))⟩
  have hcount (help : String) (required : Bool) : (count help required).CountsByRules := fun _ =>
    List.forall_mem_singleton.mpr (.inl rfl)
  have hsize (help : String) (required : Bool) : (size help required).CountsByRules := fun _ =>
    List.forall_mem_singleton.mpr (.inr (.inl rfl))
  have hother {kind : Kind} {rules : List Rule} {required : Bool} {help : String} (hkind : kind.isCount = false) :
      CountsByRules { kind, rules, required, help } := fun h => by simp [hkind] at h
  have hactivation : activation.CountsByRules := hother rfl
  have hinitializer : initializer.CountsByRules := hother rfl
  have hpadding : padding.CountsByRules := hother rfl
  have hflag (help : String) : (flag help).CountsByRules := hother rfl
  have hdropout (help : String) : (ParameterSpec.dropout help).CountsByRules := hother rfl
  cases t <;> simp [LayerType.schema, LayerType.denseSchema, *] <;> exact hother rfl

end ParameterSpec

/-! ## The check -/

namespace Validation

variable {t : LayerType} {name : String} {spec : ParameterSpec}

/-- A check with another value recorded under a name. -/
def record (v : Validation) (name : String) (value : Value) : Validation := { v with values := v.values.put name value }

/-- An integer that is one of the counts can be held to its rules, short of the range. -/
theorem exists_parameter_int (hmem : (name, spec) ∈ t.schema) (hkind : spec.kind.isCount) (hn : n < overflow) :
    ∃ w, parameter name spec (.int n) = .ok w := by
  cases hw : parameter name spec (.int n) with
  | ok w => exact ⟨w, rfl⟩
  | error f =>
      have hfaults := (ParameterSpec.parameter_eq_error name (ParameterSpec.wellCounted_schema t _ hmem)).mp hw
      have hsmall : ¬ (Value.int n).Overflows := by
        rintro ⟨m, hm, hle⟩
        obtain rfl := Value.int.inj hm
        rw [Int.natAbs_natCast] at hle
        omega
      cases hfaults with
      | uneven _ hraw _ => rcases hraw with hraw | hraw <;> contradiction
      | digits _ hraw _ _ => contradiction
      | tooLarge hv hstumbles =>
          rw [Kind.coerce_int hkind] at hv
          obtain rfl := Except.ok.inj hv
          have hcounted : spec.kind.counted (.int n) = [.int n] := by
            cases hspec : spec.kind with
            | int | size => rfl
            | number | bool | choice | shape => simp [hspec, Kind.isCount] at hkind
          rw [hcounted, Value.stumbles_singleton] at hstumbles
          exact absurd hstumbles hsmall

/-- A value that was read is held to the rules of its parameter and recorded. -/
theorem parameter_of_coerce (name : String) {raw value : Value} (hvalue : spec.kind.coerce raw = .ok value) (hgiven : value ≠ .absent) :
    parameter name spec raw = do
      let failing ← Rule.broken spec.rules value
      return ⟨if failing.isEmpty then [] else [(.text name, failing.map .broken)], [(name, value)]⟩ := by
  have hpresent : ¬ raw.isMissing = true := by
    intro hmissing
    rw [Kind.coerce, if_pos hmissing] at hvalue
    exact hgiven (Except.ok.inj hvalue).symm
  rw [parameter, if_neg hpresent, hvalue]

/-- What is wrong about a count given as text is what is wrong about it given as an integer, and its value is the double
nearest to that. -/
theorem parameter_spelled (hmem : (name, spec) ∈ t.schema) (hkind : spec.kind.isCount) (hpos : 1 ≤ n) (hn : n < overflow)
    (hleft : ∀ c ∈ left.toList, Text.isBlank c) (hright : ∀ c ∈ right.toList, Text.isBlank c) :
    ∃ errors, parameter name spec (.int n) = .ok ⟨errors, [(name, .int n)]⟩ ∧
      parameter name spec (.text (left ++ toString n ++ right)) = .ok ⟨errors, [(name, .int (nearest n))]⟩ := by
  obtain ⟨w, hw⟩ := exists_parameter_int hmem hkind hn
  have hgiven := parameter_of_coerce name (Kind.coerce_int hkind n) nofun
  have hspelled := parameter_of_coerce name (Kind.coerce_spelled hkind hpos hn hleft hright) nofun
  have hrules := ParameterSpec.countsByRules_schema t _ hmem hkind
  rw [hgiven] at hw
  obtain ⟨failing, hfailing, _⟩ := bind_eq_ok.mp hw
  rw [hgiven, hspelled, Rule.broken_nearest hrules hpos hn, hfailing]
  exact ⟨_, rfl, rfl⟩

/-- A positive integer short of the range, given as text with blanks around it or as itself.  What was given as text is the
double nearest to the integer, `r`, which is the integer where this is a double and another one everywhere else.  The checks
fail alike or not at all, and then nothing differs but the value, `r` in place of the integer.  So a text means the integer
that it spells as long as this has no more than 53 bits before its zeros. -/
theorem check_of_spelled (hmem : (name, spec) ∈ t.schema) (hkind : spec.kind.isCount) (hpos : 1 ≤ n) (hn : n < overflow)
    (hleft : ∀ c ∈ left.toList, Text.isBlank c) (hright : ∀ c ∈ right.toList, Text.isBlank c) (params : Mapping) :
    ∃ r : Nat, (r = n ↔ IsExact n) ∧ IsExact r ∧ (∀ k, IsExact k → ((r : Int) - n).natAbs ≤ ((k : Int) - n).natAbs) ∧
      ofParams t (params.put (.text name) (.text (left ++ toString n ++ right))) =
        (ofParams t (params.put (.text name) (.int n))).map (·.record name (.int r)) ∧
      (∀ v, ofParams t (params.put (.text name) (.int n)) = .ok v → v.values.lookup name = some (.int n)) ∧
      (IsExact n → ofParams t (params.put (.text name) (.text (left ++ toString n ++ right))) =
        ofParams t (params.put (.text name) (.int n))) ∧
      ∃ v, ofParams t [(.text name, .int n)] = .ok v := by
  have hn0 : n ≠ 0 := by omega
  obtain ⟨errors, hgiven, hspelled⟩ := parameter_spelled hmem hkind hpos hn hleft hright
  obtain ⟨strange, ahead, behind, hahead, hbehind, hcheck⟩ := ofParams_put hmem params
  refine ⟨nearest n, Binary64.nearest_eq_self_iff hn0, Binary64.isExact_nearest n,
    fun k hk => Binary64.nearest_le hn0 hk, ?_, ?_, ?_, ?_⟩
  · rw [hcheck, hcheck, hgiven, hspelled]
    cases ha : ahead with
    | error f => rfl
    | ok a =>
        cases hb : behind with
        | error f => rfl
        | ok b =>
            have hput := Entries.put_between (Value.int n) (.int (nearest n)) (hahead a ha) (hbehind b hb)
            simp only [bind, Except.bind, pure, Except.pure, Except.map, record, List.singleton_append, hput]
  · intro v hv
    rw [hcheck, hgiven] at hv
    obtain ⟨a, ha, hv⟩ := bind_eq_ok.mp hv
    obtain ⟨w, hw, hv⟩ := bind_eq_ok.mp hv
    obtain ⟨b, _, hv⟩ := bind_eq_ok.mp hv
    obtain rfl := Except.ok.inj hw
    obtain rfl := pure_eq_ok.mp hv
    rw [List.lookup_append, Entries.lookup_eq_none (hahead a ha)]
    simp
  · intro hexact
    rw [hcheck, hcheck, hgiven, hspelled, (Binary64.nearest_eq_self_iff hn0).mpr hexact]
  · refine exists_ofParams.mpr fun p hp => ?_
    obtain ⟨other, spec'⟩ := p
    rw [Mapping.value, Mapping.find?_singleton]
    by_cases hname : other = name
    · subst hname
      obtain rfl := LayerType.eq_of_mem_schema hp hmem
      rw [if_pos rfl]
      exact exists_parameter_int hmem hkind hn
    · rw [if_neg hname]
      exact ⟨_, rfl⟩

/-- The units of a layer as a form sends them. -/
theorem check_of_spelled_units :
    IsExact 128 ∧ ofParams .dense [(.text "units", .text " 128")] = ofParams .dense [(.text "units", .int 128)] := by
  have hmem : ("units", ParameterSpec.count "Number of neurons" true) ∈ LayerType.dense.schema := List.mem_cons_self
  have hrange : 128 < overflow := by
    have hoverflow := Binary64.le_overflow
    omega
  have hexact : IsExact 128 := Binary64.isExact_of_le (by decide)
  have hleft : ∀ c ∈ " ".toList, Text.isBlank c := List.forall_mem_singleton.mpr rfl
  have hright : ∀ c ∈ "".toList, Text.isBlank c := List.forall_mem_nil _
  obtain ⟨_, _, _, _, _, _, hsame, _⟩ := check_of_spelled hmem rfl (by decide) hrange hleft hright []
  exact ⟨hexact, hsame hexact⟩

/-- Units with more than 53 bits are other units as text. -/
theorem units_differ_as_text :
    ∃ v w, ofParams .dense [(.text "units", .int 9007199254740993)] = .ok v ∧
      ofParams .dense [(.text "units", .text "9007199254740993")] = .ok w ∧
      v.values.lookup "units" = some (.int 9007199254740993) ∧ w.values.lookup "units" = some (.int 9007199254740992) :=
  ⟨_, _, rfl, rfl, rfl, rfl⟩

end Validation

end LayerStack
