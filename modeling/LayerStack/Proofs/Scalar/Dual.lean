import Mathlib.Analysis.SpecialFunctions.ExpDeriv
import Mathlib.Analysis.SpecialFunctions.Sqrt
import LayerStack.Proofs.Scalar.Real

/-!
# LayerStack.Proofs.Scalar.Dual

Real numbers that move.

A dual number is a real number together with the rate at which it moves.  Sums, products and quotients move by the rules
of the derivative, the value of an elementary function by the derivative of that function, and a constant does not move.
So a definition that is run on dual numbers gives its result together with the derivative of the result, by the chain rule
along every step of the definition.

Dual numbers are compared by their values.  Of two equal values that of a constant counts as the larger, so where a number
passes a constant, the larger of the two does not move (`slope_maximum_zero`).
-/

namespace LayerStack

noncomputable section

/-- A real number and the rate at which it moves. -/
@[ext]
structure Dual where
  value : ℝ
  slope : ℝ

namespace Dual

/-- A number that does not move. -/
def constant (x : ℝ) : Dual := ⟨x, 0⟩

/-- A function of a number that moves. -/
def lift (f : ℝ → ℝ) (a : Dual) : Dual := ⟨f a.value, deriv f a.value * a.slope⟩

instance : Elementary Dual where
  exp := lift Elementary.exp
  expm1 := lift Elementary.expm1
  log := lift Elementary.log
  log1p := lift Elementary.log1p
  sqrt := lift Elementary.sqrt
  tanh := lift Elementary.tanh
  sin := lift Elementary.sin
  cos := lift Elementary.cos
  pow a b := ⟨Elementary.pow a.value b.value,
    deriv (Elementary.pow · b.value) a.value * a.slope + deriv (Elementary.pow a.value) b.value * b.slope⟩
  pi := constant Elementary.pi

/-- Is a number smaller than another one, or of the same value and moving where that does not? -/
def lt (a b : Dual) : Prop := a.value < b.value ∨ a.value = b.value ∧ a.slope ≠ 0 ∧ b.slope = 0

instance : Zero Dual := ⟨constant 0⟩
instance : One Dual := ⟨constant 1⟩
instance : Add Dual := ⟨fun a b => ⟨a.value + b.value, a.slope + b.slope⟩⟩
instance : Sub Dual := ⟨fun a b => ⟨a.value - b.value, a.slope - b.slope⟩⟩
instance : Mul Dual := ⟨fun a b => ⟨a.value * b.value, a.slope * b.value + a.value * b.slope⟩⟩
instance : Div Dual := ⟨fun a b => ⟨a.value / b.value, (a.slope * b.value - a.value * b.slope) / b.value ^ 2⟩⟩
instance : Neg Dual := ⟨fun a => ⟨-a.value, -a.slope⟩⟩
instance : NatCast Dual := ⟨fun n => constant n⟩
instance : LT Dual := ⟨lt⟩
instance : LE Dual := ⟨fun a b => ¬ lt b a⟩

open Classical in
instance : Scalar Dual where
  decidableLT := inferInstance
  decidableLE := inferInstance
  natPow a n := ⟨a.value ^ n, n * a.value ^ (n - 1) * a.slope⟩
  ofNumber x := constant (Scalar.ofNumber x)
  whole? a := Scalar.whole? a.value
  truncate? a := Scalar.truncate? a.value
  toBinary64 a := Scalar.toBinary64 a.value
  least? := none
  isWord _ := false

/-! ## Values and slopes -/

variable (a b : Dual) (x y : ℝ)

@[simp] theorem value_constant : (constant x).value = x := rfl
@[simp] theorem slope_constant : (constant x).slope = 0 := rfl

@[simp] theorem value_zero : (0 : Dual).value = 0 := rfl
@[simp] theorem slope_zero : (0 : Dual).slope = 0 := rfl

@[simp] theorem value_add : (a + b).value = a.value + b.value := rfl
@[simp] theorem slope_add : (a + b).slope = a.slope + b.slope := rfl

@[simp] theorem value_sub : (a - b).value = a.value - b.value := rfl
@[simp] theorem slope_sub : (a - b).slope = a.slope - b.slope := rfl

@[simp] theorem value_mul : (a * b).value = a.value * b.value := rfl
@[simp] theorem slope_mul : (a * b).slope = a.slope * b.value + a.value * b.slope := rfl

@[simp] theorem value_div : (a / b).value = a.value / b.value := rfl
@[simp] theorem slope_div : (a / b).slope = (a.slope * b.value - a.value * b.slope) / b.value ^ 2 := rfl

@[simp] theorem value_exp : (Elementary.exp a).value = Elementary.exp a.value := rfl

@[simp] theorem slope_exp : (Elementary.exp a).slope = Elementary.exp a.value * a.slope :=
  congrArg (· * a.slope) (congrFun Real.deriv_exp a.value)

@[simp] theorem value_sqrt : (Elementary.sqrt a).value = Elementary.sqrt a.value := rfl

theorem slope_sqrt {a : Dual} (ha : a.value ≠ 0) :
    (Elementary.sqrt a).slope = a.slope / (2 * Elementary.sqrt a.value) := by
  have hderiv : deriv Elementary.sqrt a.value = 1 / (2 * Elementary.sqrt a.value) :=
    (Real.hasDerivAt_sqrt ha).deriv
  show deriv Elementary.sqrt a.value * a.slope = _
  rw [hderiv]
  ring

/-- A quotient by a constant moves as its numerator does. -/
theorem slope_div_constant : (a / constant x).slope = a.slope / x := by
  rw [slope_div, value_constant, slope_constant, mul_zero, sub_zero]
  by_cases hx : x = 0
  · simp [hx]
  · field_simp

@[simp] theorem value_natCast (n : Nat) : ((n : Dual)).value = n := rfl
@[simp] theorem slope_natCast (n : Nat) : ((n : Dual)).slope = 0 := rfl

@[simp] theorem value_neg : (-a).value = -a.value := rfl
@[simp] theorem slope_neg : (-a).slope = -a.slope := rfl

@[simp] theorem value_one : (1 : Dual).value = 1 := rfl
@[simp] theorem slope_one : (1 : Dual).slope = 0 := rfl

/-! ## Exact arithmetic -/

instance : CommRing Dual where
  nsmul := nsmulRec
  zsmul := zsmulRec
  npow := npowRec
  npow_zero _ := rfl
  npow_succ _ _ := rfl
  add_assoc a b c := by ext <;> simp <;> ring
  zero_add a := by ext <;> simp
  add_zero a := by ext <;> simp
  add_comm a b := by ext <;> simp <;> ring
  left_distrib a b c := by ext <;> simp <;> ring
  right_distrib a b c := by ext <;> simp <;> ring
  zero_mul a := by ext <;> simp
  mul_zero a := by ext <;> simp
  mul_assoc a b c := by ext <;> simp <;> ring
  one_mul a := by ext <;> simp
  mul_one a := by ext <;> simp
  mul_comm a b := by ext <;> simp <;> ring
  neg_add_cancel a := by ext <;> simp
  sub_eq_add_neg a b := by ext <;> simp <;> ring
  natCast_zero := by ext <;> simp
  natCast_succ n := by ext <;> simp

instance : ExactScalar Dual where
  __ := (inferInstance : Scalar Dual)
  __ := (inferInstance : CommRing Dual)

@[simp] theorem value_sum {ι : Type} (s : Finset ι) (f : ι → Dual) : (∑ i ∈ s, f i).value = ∑ i ∈ s, (f i).value := by
  induction s using Finset.cons_induction with
  | empty => rfl
  | cons i s hi ih => rw [Finset.sum_cons, Finset.sum_cons, value_add, ih]

@[simp] theorem slope_sum {ι : Type} (s : Finset ι) (f : ι → Dual) : (∑ i ∈ s, f i).slope = ∑ i ∈ s, (f i).slope := by
  induction s using Finset.cons_induction with
  | empty => rfl
  | cons i s hi ih => rw [Finset.sum_cons, Finset.sum_cons, slope_add, ih]

/-! ## Constants -/

theorem zero_eq : (0 : Dual) = constant 0 := rfl

theorem one_eq : (1 : Dual) = constant 1 := rfl

theorem natCast_eq (n : Nat) : (n : Dual) = constant n := rfl

theorem constant_sub : constant x - constant y = constant (x - y) := by
  ext <;> simp

theorem constant_div : constant x / constant y = constant (x / y) := by
  ext
  · rfl
  · rw [slope_div_constant, slope_constant, slope_constant, zero_div]

theorem constant_lt : constant x < constant y ↔ x < y := by
  show x < y ∨ x = y ∧ (0 : ℝ) ≠ 0 ∧ (0 : ℝ) = 0 ↔ x < y
  simp

theorem constant_le : constant x ≤ constant y ↔ x ≤ y := by
  show ¬ constant y < constant x ↔ x ≤ y
  rw [constant_lt, not_lt]

theorem sqrt_constant : Elementary.sqrt (constant x) = constant (Elementary.sqrt x) := by
  ext
  · rfl
  · exact mul_zero _

/-! ## Maxima -/

theorem value_le_of_not_lt {a b : Dual} (h : ¬ a < b) : b.value ≤ a.value :=
  not_lt.mp fun hlt => h (.inl hlt)

/-- The value of the larger of two numbers is the larger of their values. -/
theorem value_maximum : (Scalar.maximum a b).value = Scalar.maximum a.value b.value := by
  have hreal : Scalar.maximum a.value b.value = max a.value b.value := by
    unfold Scalar.maximum
    split
    · next h => exact (max_eq_left h.le).symm
    · next h => rw [if_pos (not_lt.mp h), max_eq_right (not_lt.mp h)]
  rw [hreal]
  unfold Scalar.maximum
  split
  · next h =>
      have hle : b.value ≤ a.value := h.elim le_of_lt fun hequal => hequal.1.le
      exact (max_eq_left hle).symm
  · next h =>
      have hle : a ≤ b := h
      rw [if_pos hle, max_eq_right (value_le_of_not_lt h)]

/-- The larger of zero and a number moves where the number is above zero. -/
theorem slope_maximum_zero : (Scalar.maximum 0 a).slope = if 0 < a.value then a.slope else 0 := by
  unfold Scalar.maximum
  split
  · next h =>
      have hle : ¬ 0 < a.value := not_lt.mpr (h.elim le_of_lt fun hequal => hequal.1.le)
      rw [if_neg hle, slope_zero]
  · next h =>
      have hle : (0 : Dual) ≤ a := h
      have hvalue : 0 ≤ a.value := value_le_of_not_lt h
      rw [if_pos hle]
      split
      · rfl
      · next hnot =>
          -- At zero only a constant is not below zero.
          have hzero : a.value = 0 := le_antisymm (not_lt.mp hnot) hvalue
          by_contra hmoves
          exact h (.inr ⟨hzero, hmoves, rfl⟩)

end Dual

end

end LayerStack
