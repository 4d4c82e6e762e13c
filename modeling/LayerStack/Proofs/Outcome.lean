import LayerStack.Validation

/-!
# LayerStack.Proofs.Outcome

Results taken apart: what is known of the steps of a computation that came to a value, and of one with a state.
-/

namespace LayerStack

variable {ε α β : Type}

/-- A chained computation has a value exactly where both of its steps have one. -/
theorem bind_eq_ok {x : Except ε α} {f : α → Except ε β} {b : β} :
    (x >>= f) = .ok b ↔ ∃ a, x = .ok a ∧ f a = .ok b := by
  cases x <;> simp [bind, Except.bind]

/-- A chained computation fails where one of its steps does. -/
theorem bind_eq_error {x : Except ε α} {f : α → Except ε β} {e : ε} :
    (x >>= f) = .error e ↔ x = .error e ∨ ∃ a, x = .ok a ∧ f a = .error e := by
  cases x <;> simp [bind, Except.bind]

theorem pure_eq_ok {a b : α} : (pure a : Except ε α) = .ok b ↔ a = b := by
  simp [pure, Except.pure]

theorem pure_ne_error {a : α} {e : ε} : (pure a : Except ε α) ≠ .error e := by
  simp [pure, Except.pure]

/-- A mapped computation has a value exactly where the computation has one. -/
theorem map_eq_ok {x : Except ε α} {f : α → β} {b : β} : f <$> x = .ok b ↔ ∃ a, x = .ok a ∧ f a = b := by
  cases x <;> simp [Functor.map, Except.map]

/-- What a failure is called has no part in the values. -/
theorem mapError_eq_ok {ε' : Type} {x : Except ε α} {f : ε → ε'} {b : α} : x.mapError f = .ok b ↔ x = .ok b := by
  cases x with
  | error e => exact ⟨nofun, nofun⟩
  | ok a => exact ⟨fun h => congrArg Except.ok (Except.ok.inj h), fun h => congrArg Except.ok (Except.ok.inj h)⟩

/-- Mapped computations are equal where both fail alike, or have values that are mapped to one. -/
theorem map_eq_map {γ : Type} {x : Except ε α} {y : Except ε β} {f : α → γ} {g : β → γ} :
    x.map f = y.map g ↔ (∃ e, x = .error e ∧ y = .error e) ∨ ∃ a b, x = .ok a ∧ y = .ok b ∧ f a = g b := by
  cases x <;> cases y <;> simp [Except.map, eq_comm]

theorem toOption_eq_some {x : Except ε α} {a : α} : x.toOption = some a ↔ x = .ok a := by
  cases x <;> simp [Except.toOption]

/-- A chained computation with a state hands the first result and the state it left to the second. -/
theorem run_bind {σ : Type} (x : StateM σ α) (f : α → StateM σ β) (s : σ) : (x >>= f) s = f (x s).1 (x s).2 := rfl

theorem run_pure {σ : Type} (a : α) (s : σ) : (pure a : StateM σ α) s = (a, s) := rfl

theorem run_map {σ : Type} (f : α → β) (x : StateM σ α) (s : σ) : (f <$> x) s = (f (x s).1, (x s).2) := rfl

theorem run_get {σ : Type} (s : σ) : (get : StateM σ σ) s = (s, s) := rfl

namespace Analysis

@[simp] theorem ofFault_ok (a : α) : ofFault (.ok a) = .ok a := rfl

@[simp] theorem ofFault_error (f : AnalysisFault) : ofFault (.error f : Except AnalysisFault α) = .error (.fault f) := rfl

@[simp] theorem ofDesign_ok (a : α) : ofDesign (.ok a) = .ok a := rfl

@[simp] theorem ofDesign_error (e : DesignError) : ofDesign (.error e : Except DesignError α) = .error (.design e) := rfl

theorem ofFault_eq_ok {x : Except AnalysisFault α} {a : α} : ofFault x = .ok a ↔ x = .ok a := by
  cases x <;> simp

theorem ofDesign_eq_ok {x : Except DesignError α} {a : α} : ofDesign x = .ok a ↔ x = .ok a := by
  cases x <;> simp

theorem ofFault_eq_fault {x : Except AnalysisFault α} {f : AnalysisFault} :
    ofFault x = .error (.fault f) ↔ x = .error f := by
  cases x <;> simp

/-- Blaming the design is no fault. -/
theorem ofDesign_ne_fault {x : Except DesignError α} {f : AnalysisFault} : ofDesign x ≠ .error (.fault f) := by
  cases x <;> simp

/-- Nothing that faults blames the design. -/
theorem ofFault_ne_design {x : Except AnalysisFault α} {e : DesignError} : ofFault x ≠ .error (.design e) := by
  cases x <;> simp

end Analysis

end LayerStack
