import LayerStack.Proofs.Parameter.Each

/-!
# LayerStack.Proofs.Parameter.Sanitize

A single value sanitized, beside the check of all parameters.

Both coerce: a check records the coerced value of what was given (`coerce_of_recorded`), and sanitizing comes to the same
value, without a look at the other parameters or the rules (`sanitize_of_recorded`).  To sanitize or coerce once more changes
nothing (`sanitize_of_sanitize`).
-/

namespace LayerStack

variable {t : LayerType} {name : String} {spec : ParameterSpec} {params : Mapping} {raw v : Value}

/-- A value that a check records is of a parameter of the schema, and the coerced form of what was given. -/
theorem Validation.coerce_of_recorded {checked : Validation} (h : ofParams t params = .ok checked)
    (hv : checked.values.lookup name = some v) :
    ∃ spec, t.schema.lookup name = some spec ∧ spec.kind.coerce (params.value name) = .ok v := by
  cases hspec : t.schema.lookup name with
  | none => simp [(lookup_of_unknown h hspec).1] at hv
  | some spec =>
      obtain ⟨w, hw, hvalues, _⟩ := lookup_of_known h hspec
      rw [hvalues] at hv
      cases verdict_of_parameter hw with
      | missing _ | unreadable _ _ => contradiction
      | read _ hvalue _ =>
          rw [List.lookup_cons_self, Option.some.injEq] at hv
          exact ⟨spec, rfl, hv ▸ hvalue⟩

namespace LayerType

/-- A value that can be coerced is sanitized to what it is coerced to. -/
theorem sanitize_of_coerce (hspec : t.schema.lookup name = some spec) (h : spec.kind.coerce raw = .ok v) :
    t.sanitize name raw = .ok v := by
  rw [sanitize, hspec]
  simp only [h]

/-- A sanitized value is either coerced or what it was, and sanitized to itself. -/
theorem sanitize_of_sanitize (h : t.sanitize name raw = .ok v) : t.sanitize name v = .ok v := by
  cases hspec : t.schema.lookup name with
  | none =>
      rw [sanitize, hspec]
  | some spec =>
      cases hcoerce : spec.kind.coerce raw with
      | ok value =>
          rw [sanitize_of_coerce hspec hcoerce] at h
          obtain rfl := Except.ok.inj h
          exact sanitize_of_coerce hspec (Kind.coerce_of_coerce hcoerce)
      | error error =>
          have hraw := h
          simp only [sanitize, hspec, hcoerce] at h
          cases error with
          | uneven | digits => contradiction
          | number | array | boolean =>
              obtain rfl := Except.ok.inj h
              exact hraw

/-- Where a check records a value, sanitizing what was given comes to the same. -/
theorem sanitize_of_recorded {checked : Validation} (h : Validation.ofParams t params = .ok checked)
    (hv : checked.values.lookup name = some v) : t.sanitize name (params.value name) = .ok v := by
  obtain ⟨spec, hspec, hcoerce⟩ := Validation.coerce_of_recorded h hv
  exact sanitize_of_coerce hspec hcoerce

/-- Coercion comes to rest after one step: whatever a kind makes of a value, it leaves alone.  And it is the same wherever it
happens: what a check records for a parameter is what the parameter is sanitized to. -/
theorem coercion_comes_to_rest :
    (∀ (kind : Kind) (raw v : Value), kind.coerce raw = .ok v → kind.coerce v = .ok v) ∧
      ∀ (t : LayerType) (params : Mapping) (checked : Validation) (name : String) (v : Value),
        Validation.ofParams t params = .ok checked → checked.values.lookup name = some v →
          t.sanitize name (params.value name) = .ok v :=
  ⟨fun _ _ _ => Kind.coerce_of_coerce, fun _ _ _ _ _ => sanitize_of_recorded⟩

/-- A row with a whole double is coerced to a list of integers, which is coerced to itself, and a numeral with blanks to an
integer by a check and by itself. -/
theorem typed_comes_to_rest :
    Kind.size.coerce (.row [.int 3, .float (.ofDecimal false 20 (-1))]) = .ok (.list [.int 3, .int 2]) ∧
      Kind.size.coerce (.list [.int 3, .int 2]) = .ok (.list [.int 3, .int 2]) ∧
      ∃ checked, Validation.ofParams .multiHeadAttention Validation.typed = .ok checked ∧
        checked.values.lookup "numHeads" = some (.int 2) ∧
        LayerType.multiHeadAttention.sanitize "numHeads" (Validation.typed.value "numHeads") = .ok (.int 2) := by
  have hread : Kind.size.coerce (.row [.int 3, .float (.ofDecimal false 20 (-1))]) = .ok (.list [.int 3, .int 2]) := rfl
  obtain ⟨checked, hchecked, hvalue⟩ : ∃ checked, Validation.ofParams .multiHeadAttention Validation.typed = .ok checked ∧
      checked.values.lookup "numHeads" = some (.int 2) := ⟨_, rfl, rfl⟩
  exact ⟨hread, coercion_comes_to_rest.1 _ _ _ hread, checked, hchecked, hvalue,
    coercion_comes_to_rest.2 _ _ _ _ _ hchecked hvalue⟩

end LayerType

end LayerStack
