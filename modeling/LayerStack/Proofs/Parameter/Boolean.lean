import LayerStack.Proofs.Parameter.Complete
import LayerStack.Proofs.Parameter.Fault

/-!
# LayerStack.Proofs.Parameter.Boolean

Booleans where numbers are asked for.

A boolean is no number to any rule, and coercion leaves it what it is, by itself or as an item of a list.  So what was given
as one or holds one comes to a value that has not the form of a number, a size or a shape (`Value.Misfits`), and is reported
(`Validation.reports_boolean`).  There is one way around that.  A row is made an array of one element type before its items
are looked at, and beside numbers its booleans become numbers too (`Value.Blends`): true is one from then on, and a size is
as good with it as with any other (`Validation.parameter_counting_row`).
-/

namespace LayerStack

/-! ## Values with booleans -/

namespace Value

/-- A boolean, or a list or row with one among its items. -/
def HoldsBoolean : Value → Prop
  | .list items | .row items => ∃ v ∈ items, v.isBoolean
  | v => v.isBoolean

/-- A row whose leaves have the type of numbers in common. -/
def Blends : Value → Prop
  | .row items => elementType (leavesAll items) = .integer ∨ elementType (leavesAll items) = .double
  | _ => False

/-- A value that is no number, size or shape: a boolean, a row, or a list with an item that is no integer. -/
def Misfits : Value → Prop
  | .list items => ∃ v ∈ items, ∀ n, v ≠ .int n
  | .row _ => True
  | v => v.isBoolean

variable {v : Value}

theorem eq_of_isBoolean (h : v.isBoolean) : ∃ b, v = .bool b ∨ v = .scalar (.bool b) := by
  unfold isBoolean at h
  split at h
  · next b => exact ⟨b, .inl rfl⟩
  · next b => exact ⟨b, .inr rfl⟩
  · contradiction

theorem isMissing_of_holdsBoolean (h : v.HoldsBoolean) : v.isMissing = false := by
  cases v with
  | list items | row items | bool b | scalar s => rfl
  | absent | int n | float x | text s | mapping entries | array items => contradiction

theorem ne_int_of_isBoolean (h : v.isBoolean) (n : Int) : v ≠ .int n := by
  rintro rfl
  contradiction

theorem normalize_of_isBoolean (h : v.isBoolean) : Kind.normalizeUnlessBoolean v = v := by
  rw [Kind.normalizeUnlessBoolean, if_pos h]

/-- A boolean in an array that is not one of numbers does not become an integer. -/
theorem element_ne_int {type : ElementType} (htype : ¬ (type = .integer ∨ type = .double)) (h : v.isBoolean) (n : Int) :
    Kind.normalizeUnlessBoolean (nested (toElement type) v) ≠ .int n := by
  obtain ⟨b, rfl | rfl⟩ := eq_of_isBoolean h <;> cases type <;> simp at htype <;> exact nofun

theorem nestedAll_eq_map (leaf : Value → Value) (items : List Value) : nestedAll leaf items = items.map (nested leaf) := by
  induction items with
  | nil => rfl
  | cons v items ih => rw [nestedAll, ih, List.map_cons]

/-! ### Rows of integers -/

/-- A boolean or an integer within words. -/
def Counts (v : Value) : Prop := v.isBoolean ∨ ∃ n, v = .int n ∧ Word.isSigned n

variable {items : List Value}

/-- What counts is a leaf. -/
theorem Counts.leaf (h : v.Counts) : v.axes? = some [] ∧ v.leaves = [v] ∧ ∀ leaf, nested leaf v = leaf v := by
  rcases h with hboolean | ⟨n, rfl, _⟩
  · obtain ⟨b, rfl | rfl⟩ := eq_of_isBoolean hboolean <;> exact ⟨rfl, rfl, fun _ => rfl⟩
  · exact ⟨rfl, rfl, fun _ => rfl⟩

theorem leafType_int {n : Int} (hn : Word.isSigned n) : leafType (.int n) = .integer n := by
  rw [leafType, hn, Bool.true_or, if_pos rfl]

theorem Counts.leafType (h : v.Counts) : v.leafType = .bool ∨ ∃ n, v.leafType = .integer n ∧ Word.isSigned n := by
  rcases h with hboolean | ⟨n, rfl, hn⟩
  · obtain ⟨b, rfl | rfl⟩ := eq_of_isBoolean hboolean <;> exact .inl rfl
  · exact .inr ⟨n, leafType_int hn, hn⟩

theorem axesAll?_of_leaves (h : ∀ v ∈ items, v.axes? = some []) : axesAll? items = some [items.length] := by
  induction items with
  | nil => rfl
  | cons v items ih =>
      obtain ⟨hv, hitems⟩ := List.forall_mem_cons.mp h
      cases items with
      | nil => simp [axesAll?, hv]
      | cons w items => simp [axesAll?, hv, ih hitems]

theorem leavesAll_of_leaves (h : ∀ v ∈ items, v.leaves = [v]) : leavesAll items = items := by
  induction items with
  | nil => rfl
  | cons v items ih =>
      obtain ⟨hv, hitems⟩ := List.forall_mem_cons.mp h
      rw [leavesAll, hv, ih hitems, List.singleton_append]

/-- One integer among booleans makes all of them integers. -/
theorem elementType_of_counts (h : ∀ v ∈ items, v.Counts) (hinteger : ∃ n, .int n ∈ items) : elementType items = .integer := by
  have htypes : ∀ type ∈ items.map leafType, type = .bool ∨ ∃ n, type = .integer n ∧ Word.isSigned n := by
    intro type htype
    obtain ⟨v, hv, rfl⟩ := List.mem_map.mp htype
    exact (h v hv).leafType
  have hnone (p : LeafType → Bool) (hbool : p .bool = false) (hint : ∀ n, p (.integer n) = false) :
      (items.map leafType).any p = false :=
    List.any_eq_false.mpr fun type htype => by rcases htypes type htype with rfl | ⟨n, rfl, _⟩ <;> simp [hbool, hint]
  unfold elementType
  simp only [hnone (· == .other) rfl fun _ => rfl, hnone (· == .text) rfl fun _ => rfl,
    hnone (fun type => type == .double || type == .single) rfl fun _ => rfl, Bool.false_eq_true, if_false]
  generalize hintegers : (items.map leafType).filterMap _ = integers
  have hsigned : ∀ n ∈ integers, Word.isSigned n := by
    intro n hn
    rw [← hintegers] at hn
    obtain ⟨type, htype, htaken⟩ := List.mem_filterMap.mp hn
    rcases htypes type htype with rfl | ⟨m, rfl, hm⟩
    · contradiction
    · rwa [← Option.some.inj htaken]
  have hsome : integers ≠ [] := by
    obtain ⟨n, hn⟩ := hinteger
    rcases h _ hn with hboolean | ⟨m, hm, hword⟩
    · contradiction
    · obtain rfl := Value.int.inj hm
      rw [← hintegers]
      exact List.ne_nil_of_mem (List.mem_filterMap.mpr ⟨_, List.mem_map_of_mem hn, by rw [leafType_int hword]⟩)
  rw [if_neg (by simpa using hsome), List.all_eq_true.mpr hsigned]
  simp

theorem uniform?_of_counts (h : ∀ v ∈ items, v.Counts) (hinteger : ∃ n, .int n ∈ items) :
    uniform? items = some (items.map (toElement .integer)) := by
  rw [uniform?, axesAll?_of_leaves fun v hv => (h v hv).leaf.1, leavesAll_of_leaves fun v hv => (h v hv).leaf.2.1,
    elementType_of_counts h hinteger, nestedAll_eq_map, Option.map_some]
  exact congrArg some (List.map_congr_left fun v hv => (h v hv).leaf.2.2 _)

end Value

/-! ## Coercion -/

namespace Kind

variable {kind : Kind} {raw v : Value}

/-- The kinds of numbers. -/
def isNumeric : Kind → Bool
  | .int | .number | .shape | .size => true
  | .bool | .choice => false

/-- A shape or size given as a row is the list of what the items have become. -/
theorem coercePresent_row {items kept : List Value} (hkind : kind.hasItems) (h : Value.uniform? items = some kept) :
    kind.coercePresent (.row items) = .ok (.list (kept.map normalizeUnlessBoolean)) := by
  have hlisted : listed (.row items) = .ok (.list kept) := by rw [listed, h]
  have hread : kind.coercePresent (.row items) = (do return normalizeItems (← listed (.row items))) := by
    cases kind with
    | shape | size => rfl
    | int | number | bool | choice => contradiction
  rw [hread, hlisted]
  rfl

/-- A boolean is left what it is. -/
theorem coercePresent_of_isBoolean (hkind : kind.isNumeric) (h : raw.isBoolean) : kind.coercePresent raw = .ok raw := by
  obtain ⟨b, rfl | rfl⟩ := Value.eq_of_isBoolean h <;>
    cases kind with
    | int | number | shape | size => rfl
    | bool | choice => contradiction

/-- So it is as an item of a row, unless it becomes a number. -/
theorem misfits_of_row {items : List Value} (hkind : kind.hasItems) (hraw : (Value.row items).HoldsBoolean)
    (hkept : ¬ (Value.row items).Blends) (hv : kind.coercePresent (.row items) = .ok v) : v.Misfits := by
  obtain ⟨a, hmem, ha⟩ := hraw
  cases huniform : Value.uniform? items with
  | none =>
      rw [coercePresent_eq_uneven.mpr ⟨hkind, items, .inl rfl, huniform⟩] at hv
      contradiction
  | some kept =>
      rw [coercePresent_row hkind huniform] at hv
      obtain rfl := Except.ok.inj hv
      -- All items have one type by now, and by `hkept` it is not one of numbers.
      obtain ⟨_, _, rfl⟩ := Option.map_eq_some_iff.mp huniform
      rw [Value.nestedAll_eq_map, List.map_map]
      exact ⟨_, List.mem_map_of_mem hmem, Value.element_ne_int hkept ha⟩

/-- What holds a boolean misfits once it is coerced, unless that has become a number. -/
theorem misfits_of_coercePresent (hkind : kind.isNumeric) (hraw : raw.HoldsBoolean) (hkept : kind.hasItems → ¬ raw.Blends)
    (hv : kind.coercePresent raw = .ok v) : v.Misfits := by
  cases raw with
  | list items =>
      obtain ⟨a, hmem, ha⟩ := hraw
      cases kind with
      | int | number =>
          obtain rfl := Except.ok.inj hv
          exact ⟨a, hmem, Value.ne_int_of_isBoolean ha⟩
      | shape | size =>
          obtain rfl := Except.ok.inj hv
          exact ⟨a, List.mem_map.mpr ⟨a, hmem, Value.normalize_of_isBoolean ha⟩, Value.ne_int_of_isBoolean ha⟩
      | bool | choice => contradiction
  | row items =>
      cases kind with
      | int | number =>
          obtain rfl := Except.ok.inj hv
          trivial
      | shape | size => exact misfits_of_row rfl hraw (hkept rfl) hv
      | bool | choice => contradiction
  | bool b | scalar s =>
      rw [coercePresent_of_isBoolean hkind hraw] at hv
      obtain rfl := Except.ok.inj hv
      exact hraw
  | absent | int n | float x | text s | mapping entries | array items => contradiction

end Kind

/-- What misfits has not the form of a number, a size or a shape. -/
theorem ParameterSpec.not_form_of_misfits {spec : ParameterSpec} {v : Value} (hkind : spec.kind.isNumeric) (hv : v.Misfits) :
    ¬ spec.Form v := by
  intro hform
  unfold Form at hform
  cases hspec : spec.kind with
  | int =>
      rw [hspec] at hform
      obtain ⟨n, rfl, _⟩ := hform
      contradiction
  | number =>
      rw [hspec] at hform
      obtain ⟨x, hx, _⟩ := hform
      unfold LayerConfig.number? at hx
      split at hx <;> contradiction
  | shape =>
      rw [hspec] at hform
      obtain ⟨ns, rfl, _⟩ := hform
      obtain ⟨a, hmem, ha⟩ := hv
      obtain ⟨n, _, hn⟩ := List.mem_map.mp hmem
      exact ha n hn.symm
  | size =>
      rw [hspec] at hform
      rcases hform with ⟨n, rfl, _⟩ | ⟨n, m, rfl, _⟩
      · contradiction
      · obtain ⟨a, hmem, ha⟩ := hv
        simp only [List.mem_cons, List.not_mem_nil, or_false] at hmem
        rcases hmem with rfl | rfl
        · exact ha n rfl
        · exact ha m rfl
  | bool | choice =>
      rw [hspec] at hkind
      contradiction

/-! ## Reports -/

namespace Validation

variable {t : LayerType} {schema : Schema} {name : String} {spec : ParameterSpec} {raw : Value} {params : Mapping}
  {v : Validation}

/-- What is wrong about one parameter is told under its name, and something is told. -/
theorem errors_of_parameter (h : parameter name spec raw = .ok v) (hv : v.errors ≠ []) :
    ∃ complaints, v.errors = [(.text name, complaints)] ∧ complaints ≠ [] := by
  cases verdict_of_parameter h with
  | missing _ =>
      by_cases hrequired : spec.required
      · exact ⟨[.required], by simp [hrequired], List.cons_ne_nil _ _⟩
      · simp [hrequired] at hv
  | @unreadable error _ _ => exact ⟨[.unreadable error], rfl, List.cons_ne_nil _ _⟩
  | @read _ failing _ _ _ =>
      cases failing with
      | nil => simp at hv
      | cons rule rules => exact ⟨.broken rule :: rules.map .broken, rfl, List.cons_ne_nil _ _⟩

/-- What is wrong about a parameter of a schema is among what is wrong about all of them. -/
theorem errors_of_parameters (h : parameters schema params = .ok v) (hmem : (name, spec) ∈ schema) :
    ∃ w, parameter name spec (params.value name) = .ok w ∧ w.errors ⊆ v.errors := by
  induction schema generalizing v with
  | nil => contradiction
  | cons entry schema ih =>
      simp only [parameters, bind_eq_ok, pure_eq_ok] at h
      obtain ⟨first, hfirst, rest, hrest, rfl⟩ := h
      rcases List.mem_cons.mp hmem with rfl | hmem
      · exact ⟨first, hfirst, List.subset_append_left _ _⟩
      · obtain ⟨w, hw, hsubset⟩ := ih hrest hmem
        exact ⟨w, hw, List.Subset.trans hsubset (List.subset_append_right _ _)⟩

/-- A row of integers and booleans is checked as the list with one in place of true and zero in place of false. -/
theorem parameter_counting_row {items : List Value} (hkind : spec.kind.hasItems) (h : ∀ v ∈ items, v.Counts)
    (hinteger : ∃ n, .int n ∈ items) :
    parameter name spec (.row items) = parameter name spec (.list (items.map (Value.toElement .integer))) := by
  have hlist : spec.kind.coercePresent (.list (items.map (Value.toElement .integer))) =
      .ok (.list ((items.map (Value.toElement .integer)).map Kind.normalizeUnlessBoolean)) := by
    cases hspec : spec.kind with
    | shape | size => rfl
    | int | number | bool | choice =>
        rw [hspec] at hkind
        contradiction
  have hrow := Kind.coercePresent_row hkind (Value.uniform?_of_counts h hinteger)
  have hcoerce : spec.kind.coerce (.row items) = spec.kind.coerce (.list (items.map (Value.toElement .integer))) :=
    hrow.trans hlist.symm
  unfold parameter
  rw [hcoerce]
  rfl

/-- A kernel size with a boolean, given as a row. -/
def blended : Mapping := [(.text "filters", .int 8), (.text "kernelSize", .row [.int 3, .bool true])]

end Validation

end LayerStack
