import LayerStack.Proofs.Parameter.Complete
import Mathlib.Tactic.Linarith

/-!
# LayerStack.Proofs.Shape.Window

The windows an operator runs are as many as its shape rule counts.

The rule counts windows over the bare axis, by `⌈size / stride⌉` or `⌊(size - kernel) / stride⌋ + 1`; an operator pads
the axis and counts the windows that lie inside it.  `count_ofSizes` says that both come to the same number for every
size, kernel and stride of at least one.
-/

namespace LayerStack

variable {size kernel stride count : Int}

/-! ## Counts -/

/-- The number of windows inside an axis, less one, is the number of strides that fit beside the kernel. -/
theorem windowCount_valid_eq_iff (hs : 0 < stride) :
    windowCount size kernel stride .valid = count ↔
      (count - 1) * stride + kernel ≤ size ∧ size < count * stride + kernel := by
  rw [windowCount, Int.fdiv_eq_ediv_of_nonneg _ hs.le]
  have hlow := Int.ediv_mul_le (size - kernel) hs.ne'
  have hhigh := Int.lt_ediv_add_one_mul_self (size - kernel) hs
  constructor
  · rintro rfl
    constructor <;> linarith
  · rintro ⟨hle, hlt⟩
    have hle' : count - 1 ≤ (size - kernel) / stride := (Int.le_ediv_iff_mul_le hs).mpr (by linarith)
    have hlt' : (size - kernel) / stride < count := (Int.ediv_lt_iff_lt_mul hs).mpr (by linarith)
    omega

/-- The number of windows over a padded axis is the number of strides it takes to cover the bare one. -/
theorem windowCount_same_bounds (size kernel : Int) (hs : 0 < stride) :
    (windowCount size kernel stride .same - 1) * stride < size ∧ size ≤ windowCount size kernel stride .same * stride := by
  rw [windowCount, Int.fdiv_eq_ediv_of_nonneg _ hs.le]
  have hlow := Int.ediv_mul_le (-size) hs.ne'
  have hhigh := Int.lt_ediv_add_one_mul_self (-size) hs
  constructor <;> linarith

/-! ## Padding -/

/-- The padding is split evenly, and the larger half comes after. -/
theorem samePadding_halves (size kernel stride : Int) :
    0 ≤ (samePadding size kernel stride).1 ∧ (samePadding size kernel stride).1 ≤ (samePadding size kernel stride).2 ∧
      (samePadding size kernel stride).2 ≤ (samePadding size kernel stride).1 + 1 := by
  simp only [samePadding, Int.fdiv_eq_ediv_of_nonneg _ (show (0 : Int) ≤ 2 by decide)]
  omega

/-- There is as much of it as the last window lacks, if it lacks anything. -/
theorem samePadding_add (size kernel stride : Int) :
    (samePadding size kernel stride).1 + (samePadding size kernel stride).2 =
      max ((windowCount size kernel stride .same - 1) * stride + kernel - size) 0 := by
  rw [samePadding, add_sub_cancel]

/-- Which is less than all of it. -/
theorem samePadding_add_lt (size : Int) (hk : 1 ≤ kernel) (hs : 0 < stride) :
    (samePadding size kernel stride).1 + (samePadding size kernel stride).2 < kernel := by
  obtain ⟨hlast, -⟩ := windowCount_same_bounds size kernel hs
  rw [samePadding_add]
  exact max_lt (by omega) (by omega)

/-- Inside the padded axis the rule finds the windows that it counts over the bare one. -/
theorem windowCount_samePadding (size : Int) (hk : 1 ≤ kernel) (hs : 0 < stride) :
    windowCount (size + (samePadding size kernel stride).1 + (samePadding size kernel stride).2) kernel stride .valid =
      windowCount size kernel stride .same := by
  obtain ⟨hlast, hcovered⟩ := windowCount_same_bounds size kernel hs
  rw [windowCount_valid_eq_iff hs, add_assoc, samePadding_add]
  -- Where the last window lacks nothing, it ends before the axis does, but less than a stride before.
  rcases max_cases ((windowCount size kernel stride .same - 1) * stride + kernel - size) 0 with h | h
  · constructor <;> linarith
  · constructor <;> linarith

/-! ## Axes -/

namespace WindowAxis

variable {a : WindowAxis}

theorem step_eq (ha : a.backwards = false) : a.step = a.stride := by simp [step, ha]

/-- The cells that an operator adds are those of the padding. -/
theorem margins_same (ha : a.backwards = false) (size : Nat) :
    ((a.margins .same size).1 : Int) = (samePadding size a.kernel a.stride).1 ∧
      ((a.margins .same size).2 : Int) = (samePadding size a.kernel a.stride).2 := by
  obtain ⟨hbefore, hafter, -⟩ := samePadding_halves size a.kernel a.stride
  rw [margins, step_eq ha]
  exact ⟨Int.toNat_of_nonneg hbefore, Int.toNat_of_nonneg (hbefore.trans hafter)⟩

/-- They are fewer than those of a window. -/
theorem margins_lt (hk : 1 ≤ a.kernel) (hs : 1 ≤ a.stride) (ha : a.backwards = false) (padding : Padding) (size : Nat) :
    (a.margins padding size).1 + (a.margins padding size).2 < a.kernel := by
  cases padding with
  | valid => exact hk
  | same =>
      obtain ⟨hbefore, hafter⟩ := margins_same ha size
      have hless : (samePadding size a.kernel a.stride).1 + (samePadding size a.kernel a.stride).2 < a.kernel :=
        samePadding_add_lt size (by omega) (by omega)
      omega

/-- Over the padded axis there are as many windows as the rule counts over the bare one. -/
theorem windowCount_padded (hk : 1 ≤ a.kernel) (hs : 1 ≤ a.stride) (ha : a.backwards = false) (padding : Padding)
    (size : Nat) :
    windowCount (a.padded padding size) a.kernel a.stride .valid = windowCount size a.kernel a.stride padding := by
  cases padding with
  | valid => simp [padded, margins]
  | same =>
      obtain ⟨hbefore, hafter⟩ := margins_same ha size
      rw [padded, Nat.cast_add, Nat.cast_add, hbefore, hafter, windowCount_samePadding size (by omega) (by omega)]

/-- An operator runs as many windows along an axis as the rule counts. -/
theorem count_eq (hk : 1 ≤ a.kernel) (hs : 1 ≤ a.stride) (ha : a.backwards = false) (padding : Padding) (size : Nat) :
    a.count padding size = (windowCount size a.kernel a.stride padding).toNat := by
  rw [count, windowCount_padded hk hs ha]

end WindowAxis

/-! ## Grids -/

namespace WindowGrid

open LayerConfig (Spans)

variable {sizes strides : Int × Int} {padding : Padding}

/-- The windows of given sizes run forwards. -/
theorem returns_ofSizes (hstrides : Spans strides) (rows columns : Nat) :
    (ofSizes sizes strides padding).returns rows columns = true := by
  obtain ⟨hrow, hcolumn⟩ := hstrides
  have hrow' : decide (strides.1 < 0) = false := by simp; omega
  have hcolumn' : decide (strides.2 < 0) = false := by simp; omega
  simp [returns, WindowAxis.returns, ofSizes, hrow', hcolumn']

theorem outHeight_ofSizes (padding : Padding) (hsizes : Spans sizes) (hstrides : Spans strides) (h : Nat) :
    (ofSizes sizes strides padding).outHeight h = (windowCount h sizes.1 strides.1 padding).toNat := by
  obtain ⟨hsize, _⟩ := hsizes
  obtain ⟨hstride, _⟩ := hstrides
  have hkernel : ((sizes.1.toNat : Nat) : Int) = sizes.1 := by omega
  have hstep : ((strides.1.natAbs : Nat) : Int) = strides.1 := by omega
  rw [outHeight, WindowAxis.count_eq (by simp [ofSizes]; omega) (by simp [ofSizes]; omega) (by simp [ofSizes]; omega)]
  simp only [ofSizes, hkernel, hstep]

theorem outWidth_ofSizes (padding : Padding) (hsizes : Spans sizes) (hstrides : Spans strides) (w : Nat) :
    (ofSizes sizes strides padding).outWidth w = (windowCount w sizes.2 strides.2 padding).toNat := by
  obtain ⟨_, hsize⟩ := hsizes
  obtain ⟨_, hstride⟩ := hstrides
  have hkernel : ((sizes.2.toNat : Nat) : Int) = sizes.2 := by omega
  have hstep : ((strides.2.natAbs : Nat) : Int) = strides.2 := by omega
  rw [outWidth, WindowAxis.count_eq (by simp [ofSizes]; omega) (by simp [ofSizes]; omega) (by simp [ofSizes]; omega)]
  simp only [ofSizes, hkernel, hstep]

/-- Where the rule finds windows, the operator runs just those, and they fit. -/
theorem fits_of_windows (hsizes : Spans sizes) (hstrides : Spans strides) {h w : Nat} {what : String} {out : Int × Int}
    (hwindows : Shape.windows what sizes strides (h, w) padding = .ok out) :
    (ofSizes sizes strides padding).fits h w = true ∧
      ((ofSizes sizes strides padding).outHeight h : Int) = out.1 ∧
      ((ofSizes sizes strides padding).outWidth w : Int) = out.2 := by
  simp only [Shape.windows] at hwindows
  split at hwindows
  · contradiction
  · next hfit =>
      obtain rfl := Except.ok.inj hwindows
      have hheight := outHeight_ofSizes padding hsizes hstrides h
      have hwidth := outWidth_ofSizes padding hsizes hstrides w
      obtain ⟨hrow, hcolumn⟩ := hstrides
      refine ⟨?_, by omega, by omega⟩
      simp only [fits, Bool.and_eq_true, decide_eq_true_eq, hheight, hwidth]
      simp only [ofSizes]
      omega

end WindowGrid

end LayerStack
