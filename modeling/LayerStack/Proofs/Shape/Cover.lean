import Mathlib.Algebra.Order.Floor.Ring
import Mathlib.Data.Rat.Floor
import Mathlib.Data.Set.Card
import LayerStack.Proofs.Shape.Window

/-!
# LayerStack.Proofs.Shape.Cover

The windows that lie inside an axis, one by one.

`windowStarts` are the places at which windows that lie inside an axis start.  They are the multiples of the stride up to
the number of windows that the rule counts for `valid` padding (`windowStarts_eq_image`), and the windows that an operator
runs start there (`mem_windowStarts_iff`).  `same` padding adds fewer cells than a window has (`samePadding_add_lt`), so no window
lies on padding alone (`exists_cell`), and just as many as the windows it is to make room for lack.
-/

namespace LayerStack

variable {size kernel stride : Int}

/-- The places of an axis at which a window starts: a stride apart from the first place on, as long as the window lies
inside the axis. -/
def windowStarts (size kernel stride : Int) : Set Int := {p | (0 ≤ p ∧ p + kernel ≤ size) ∧ stride ∣ p}

/-! ## Inside an axis -/

/-- As many windows, a stride apart, as the rule counts. -/
theorem windowStarts_eq_image (size kernel : Int) (hs : 0 < stride) : windowStarts size kernel stride =
    ((Finset.range (windowCount size kernel stride .valid).toNat).image fun y : Nat => (y * stride : Int) : Finset Int) := by
  obtain ⟨hlast, hnext⟩ := (windowCount_valid_eq_iff hs).mp (Eq.refl (windowCount size kernel stride .valid))
  ext p
  simp only [windowStarts, Set.mem_ofPred_eq, Finset.coe_image, Set.mem_image, Finset.mem_coe, Finset.mem_range]
  constructor
  · rintro ⟨⟨hfirst, hinside⟩, q, rfl⟩
    have hq : 0 ≤ q := nonneg_of_mul_nonneg_right hfirst hs
    have hcount : q < windowCount size kernel stride .valid :=
      lt_of_mul_lt_mul_right (by linarith) hs.le
    exact ⟨q.toNat, by omega, by rw [Int.toNat_of_nonneg hq, mul_comm]⟩
  · rintro ⟨y, hy, rfl⟩
    have hbelow : (y : Int) * stride ≤ (windowCount size kernel stride .valid - 1) * stride :=
      mul_le_mul_of_nonneg_right (by omega) hs.le
    exact ⟨⟨by positivity, by linarith⟩, Dvd.intro_left _ rfl⟩

theorem ncard_windowStarts (size kernel : Int) (hs : 0 < stride) :
    (windowStarts size kernel stride).ncard = (windowCount size kernel stride .valid).toNat := by
  have hapart : Function.Injective fun y : Nat => (y : Int) * stride :=
    fun _ _ h => Int.ofNat_inj.mp (mul_right_cancel₀ hs.ne' h)
  rw [windowStarts_eq_image size kernel hs, Set.ncard_coe_finset, Finset.card_image_of_injective _ hapart, Finset.card_range]

/-- There is one where the axis is as long as a window. -/
theorem one_le_windowCount_valid (size kernel : Int) (hs : 0 < stride) :
    1 ≤ windowCount size kernel stride .valid ↔ kernel ≤ size := by
  rw [windowCount, Int.fdiv_eq_ediv_of_nonneg _ hs.le, le_add_iff_nonneg_left, Int.ediv_nonneg_iff_of_pos hs,
    sub_nonneg]

/-! ## Inside a padded axis -/

/-- A window for every stride that it takes to cover the axis. -/
theorem windowCount_same_eq_ceil (size kernel : Int) (hs : 0 < stride) :
    windowCount size kernel stride .same = ⌈(size : ℚ) / stride⌉ := by
  have hstride : (0 : ℚ) < stride := Int.cast_pos.mpr hs
  obtain ⟨hlast, hcovered⟩ := windowCount_same_bounds size kernel hs
  refine (Int.ceil_eq_iff.mpr ⟨?_, ?_⟩).symm
  · rw [lt_div_iff₀ hstride]
    exact_mod_cast hlast
  · rw [div_le_iff₀ hstride]
    exact_mod_cast hcovered

/-- An axis with cells is covered by at least one window. -/
theorem one_le_windowCount_same (kernel : Int) (hsize : 1 ≤ size) (hs : 0 < stride) :
    1 ≤ windowCount size kernel stride .same := by
  obtain ⟨-, hcovered⟩ := windowCount_same_bounds size kernel hs
  exact pos_of_mul_pos_left (by omega) hs.le

/-- A window that lies inside an axis lengthened by less than a window has one of its cells. -/
theorem exists_cell {before after p : Int} (hbefore : 0 ≤ before) (hafter : 0 ≤ after)
    (hless : before + after < kernel) (hp : p ∈ windowStarts (size + before + after) kernel stride) :
    ∃ c, (before ≤ c ∧ c < before + size) ∧ p ≤ c ∧ c < p + kernel := by
  obtain ⟨⟨hfirst, hinside⟩, -⟩ := hp
  refine ⟨max before p, ⟨le_max_left _ _, ?_⟩, le_max_right _ _, ?_⟩ <;> omega

/-- The windows that an operator runs start there. -/
theorem WindowAxis.mem_windowStarts_iff {a : WindowAxis} (hs : 1 ≤ a.stride) (ha : a.backwards = false) {padding : Padding}
    {size : Nat} {p : Int} : p ∈ windowStarts (a.padded padding size) a.kernel a.stride ↔
      ∃ y < a.count padding size, (a.start padding size y : Int) = p := by
  have hstride : (0 : Int) < a.stride := by omega
  have hstart (y : Nat) : (a.start padding size y : Int) = y * a.stride := by simp [start, ha]
  rw [windowStarts_eq_image _ _ hstride]
  simp [hstart, count]

/-! ## What the rule counts -/

/-- For every axis with cells, every window with cells and every stride: `same` padding comes before and after by halves,
is shorter than a window and makes room for a window at every stride, each of which has a cell of the axis; and `valid`
padding has a window just where the axis is as long as one, and then as many as lie inside it. -/
theorem windows_counted {n k s : Int} (hn : 1 ≤ n) (hk : 1 ≤ k) (hs : 1 ≤ s) :
    (∀ before after, samePadding n k s = (before, after) →
      (before ≤ after ∧ after ≤ before + 1) ∧ before + after ≤ k - 1 ∧
        ((windowStarts (n + before + after) k s).ncard : Int) = windowCount n k s .same ∧
        ∀ p ∈ windowStarts (n + before + after) k s, ∃ c, (before ≤ c ∧ c < before + n) ∧ p ≤ c ∧ c < p + k) ∧
      windowCount n k s .same = ⌈(n : ℚ) / s⌉ ∧ 1 ≤ windowCount n k s .same ∧
      (1 ≤ windowCount n k s .valid ↔ k ≤ n) ∧
      (k ≤ n → ((windowStarts n k s).ncard : Int) = windowCount n k s .valid) := by
  have hsame : 1 ≤ windowCount n k s .same := one_le_windowCount_same k hn hs
  refine ⟨fun before after hpadding => ?_, windowCount_same_eq_ceil n k hs, hsame, one_le_windowCount_valid n k hs,
    fun hfits => ?_⟩
  · obtain ⟨hfirst, hle, hge⟩ := samePadding_halves n k s
    have hless := samePadding_add_lt n hk hs
    have hcount := windowCount_samePadding n hk hs
    rw [hpadding] at hfirst hle hge hless hcount
    refine ⟨⟨hle, hge⟩, Int.le_sub_one_of_lt hless, ?_, fun p hp => exists_cell hfirst (hfirst.trans hle) hless hp⟩
    rw [ncard_windowStarts _ _ hs, hcount, Int.toNat_of_nonneg (by omega)]
  · have hvalid := (one_le_windowCount_valid n k hs).mpr hfits
    rw [ncard_windowStarts _ _ hs, Int.toNat_of_nonneg (by omega)]

/-- Seven cells under windows of four, three apart: `same` padding adds one cell before and two after. -/
theorem windows_counted_seven : samePadding 7 4 3 = (1, 2) ∧ (windowStarts (7 + 1 + 2) 4 3).ncard = 3 := by
  have hcounted := windows_counted (n := 7) (k := 4) (s := 3) (by decide) (by decide) (by decide)
  have hpadding : samePadding 7 4 3 = (1, 2) := by decide
  obtain ⟨-, -, hcard, -⟩ := hcounted.1 1 2 hpadding
  have hthree : windowCount 7 4 3 .same = 3 := by decide
  exact ⟨hpadding, Int.ofNat_inj.mp (hcard.trans hthree)⟩

end LayerStack
