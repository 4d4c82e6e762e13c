import Mathlib.Tactic.Ring
import LayerStack.Proofs.Binary64.Nearest
import LayerStack.Value.Share

/-!
# LayerStack.Proofs.Binary64.Share

A ratio's share of a whole.

Rounding is monotone against the numbers of the format: a quotient that is at most a natural number of the format
(`Format.Counts`) is rounded to a number that is at most it, too (`atMost_round`).  A ratio's share of a whole is a product
that is rounded once, or twice for a single, so it is at most the whole if the ratio's format counts that far
(`nearest?_share_le`).  Past that the whole itself may be rounded up.
-/

namespace LayerStack

namespace Binary64

variable {num den mantissa k m j : Nat} {exponent e : Int} {x y : Binary64} {f : Format}

/-! ## Bounds of rounded numbers -/

/-- Is a natural number one of a format? -/
def Format.Counts (f : Format) (k : Nat) : Prop :=
  ∃ mantissa exponent : Nat, mantissa < 2 ^ f.precision ∧ (exponent : Int) ≤ f.maxExponent ∧ k = mantissa * 2 ^ exponent

/-- Is a double a number from zero up to a natural one? -/
def AtMost (k : Nat) (x : Binary64) : Prop :=
  ∃ mantissa exponent, x = .finite false mantissa exponent ∧
    (fraction false mantissa exponent).1.toNat ≤ k * (fraction false mantissa exponent).2

theorem fraction_zero (e : Int) : ∃ d, 0 < d ∧ fraction false 0 e = (0, d) := by
  by_cases hpos : 0 ≤ e <;> simp [fraction, hpos]

/-- A double above zero has no sign. -/
theorem atMost_one_of_between {s : Bool} (hlow : 0 < (fraction s mantissa e).1)
    (hhigh : (fraction s mantissa e).1 ≤ (fraction s mantissa e).2) : AtMost 1 (.finite s mantissa e) := by
  cases s with
  | false => exact ⟨mantissa, e, rfl, by omega⟩
  | true =>
      have hnegative : (fraction true mantissa e).1 ≤ 0 := by
        by_cases hpos : 0 ≤ e <;> simp [fraction, hpos]
      omega

/-- A power of two is split at an exponent that is at most its own; a negative one is that of a divisor. -/
theorem two_pow_split (he : e ≤ j) : 2 ^ ((j : Int) - e).toNat * 2 ^ e.toNat = 2 ^ j * 2 ^ (-e).toNat := by
  rw [← Nat.pow_add, ← Nat.pow_add]
  congr 1
  omega

/-- A multiple of a power of two is below a greater one if it is below so many times the smaller one. -/
theorem atMost_finite (he : exponent ≤ j) (h : mantissa ≤ m * 2 ^ ((j : Int) - exponent).toNat) :
    AtMost (m * 2 ^ j) (.finite false mantissa exponent) := by
  refine ⟨mantissa, exponent, rfl, ?_⟩
  have hsplit := two_pow_split he
  have hle := Nat.mul_le_mul_right (2 ^ exponent.toNat) h
  rw [Nat.mul_assoc, hsplit, ← Nat.mul_assoc] at hle
  by_cases hpos : 0 ≤ exponent
  · have hnone : (-exponent).toNat = 0 := by omega
    have hfraction : fraction false mantissa exponent = (((mantissa * 2 ^ exponent.toNat : Nat) : Int), 1) := by
      simp [fraction, hpos]
    rw [hfraction, Int.toNat_natCast, Nat.mul_one]
    rwa [hnone, Nat.pow_zero, Nat.mul_one] at hle
  · have hnone : exponent.toNat = 0 := by omega
    have hfraction : fraction false mantissa exponent = ((mantissa : Int), 2 ^ (-exponent).toNat) := by
      simp [fraction, hpos]
    rw [hfraction, Int.toNat_natCast]
    rwa [hnone, Nat.pow_zero, Nat.mul_one] at hle

theorem roundHalfEven_le_of_le (hden : 0 < den) (h : num ≤ k * den) : roundHalfEven num den ≤ k := by
  rcases Nat.lt_or_eq_of_le h with hlt | rfl
  · have hdiv : num / den < k := (Nat.div_lt_iff_lt_mul hden).mpr hlt
    have hrounded := roundHalfEven_eq num den
    omega
  · exact (roundHalfEven_mul hden k).le

/-- A quotient below a power of two has its leading bits below it. -/
theorem leadingExponent_le {bits : Nat} (hbits : 0 < bits) (hnum : num ≠ 0)
    (h : num < 2 ^ (bits + j) * den) : leadingExponent bits num den ≤ j := by
  by_contra habove
  simp only [leadingExponent] at habove
  generalize hguess : (num.log2 : Int) - den.log2 - bits + 1 = guess at habove
  have hlow : 2 ^ num.log2 ≤ num := Nat.log2_self_le hnum
  have hhigh : den < 2 ^ (den.log2 + 1) := Nat.lt_log2_self
  split at habove
  · -- The quotient's size alone is past the power of two.
    have hpow : 2 ^ (bits + j) * 2 ^ (den.log2 + 1) ≤ 2 ^ num.log2 := by
      rw [← Nat.pow_add]
      exact Nat.pow_le_pow_right (by omega) (by omega)
    have hprod : 2 ^ (bits + j) * den < 2 ^ (bits + j) * 2 ^ (den.log2 + 1) :=
      Nat.mul_lt_mul_of_pos_left hhigh (Nat.two_pow_pos _)
    omega
  · next hfull =>
      -- It has all its bits at an exponent that is past it.
      have hpositive : 0 ≤ guess := by omega
      simp only [scaled, if_pos hpositive, Nat.pow_eq] at hfull
      have hpow : 2 ^ (bits + j) ≤ 2 ^ guess.toNat * 2 ^ (bits - 1) := by
        rw [← Nat.pow_add]
        exact Nat.pow_le_pow_right (by omega) (by omega)
      have hprod : 2 ^ (bits + j) * den ≤ den * 2 ^ guess.toNat * 2 ^ (bits - 1) := by
        rw [Nat.mul_comm, Nat.mul_assoc]
        exact Nat.mul_le_mul_left den hpow
      omega

/-- A quotient by a power of two is at most as many times a greater one. -/
theorem scaled_le (hexponent : exponent ≤ j) (h : num ≤ m * 2 ^ j * den) :
    (scaled num den exponent).1 ≤ m * 2 ^ ((j : Int) - exponent).toNat * (scaled num den exponent).2 := by
  have hsplit := two_pow_split hexponent
  have hle : num * 2 ^ (-exponent).toNat ≤ m * 2 ^ ((j : Int) - exponent).toNat * (den * 2 ^ exponent.toNat) := by
    calc num * 2 ^ (-exponent).toNat ≤ m * 2 ^ j * den * 2 ^ (-exponent).toNat := Nat.mul_le_mul_right _ h
      _ = m * den * (2 ^ j * 2 ^ (-exponent).toNat) := by ring
      _ = m * 2 ^ ((j : Int) - exponent).toNat * (den * 2 ^ exponent.toNat) := by
        rw [← hsplit]
        ring
  by_cases hpos : 0 ≤ exponent
  · have hnone : (-exponent).toNat = 0 := by omega
    simp only [scaled, if_pos hpos, Nat.pow_eq]
    rwa [hnone, Nat.pow_zero, Nat.mul_one] at hle
  · have hnone : exponent.toNat = 0 := by omega
    simp only [scaled, if_neg hpos, Nat.pow_eq]
    rwa [hnone, Nat.pow_zero, Nat.mul_one] at hle

theorem scaled_pos (hden : 0 < den) (num : Nat) (exponent : Int) : 0 < (scaled num den exponent).2 := by
  unfold scaled
  split
  · exact Nat.mul_pos hden (Nat.two_pow_pos _)
  · exact hden

/-- A packed number stays below a number of the format. -/
theorem atMost_pack (hm : m < 2 ^ f.precision) (hj : (j : Int) ≤ f.maxExponent) (hprecision : 0 < f.precision)
    (hexponent : exponent ≤ j) (h : mantissa ≤ m * 2 ^ ((j : Int) - exponent).toNat) :
    AtMost (m * 2 ^ j) (f.pack false mantissa exponent) := by
  simp only [Format.pack, Nat.pow_eq]
  by_cases hcarry : mantissa = 2 ^ f.precision
  · -- So the exponent is not the greatest yet, and half the mantissa is one step further on.
    have hbelow : exponent < j := by
      by_contra hge
      have hnone : ((j : Int) - exponent).toNat = 0 := by omega
      rw [hnone, Nat.pow_zero, Nat.mul_one] at h
      omega
    have hhalf : 2 ^ f.precision = 2 * 2 ^ (f.precision - 1) := by
      rw [← Nat.pow_succ']
      congr 1
      omega
    have hstep : 2 ^ ((j : Int) - exponent).toNat = 2 * 2 ^ ((j : Int) - (exponent + 1)).toNat := by
      rw [← Nat.pow_succ']
      congr 1
      omega
    have hle : 2 ^ (f.precision - 1) ≤ m * 2 ^ ((j : Int) - (exponent + 1)).toNat := by
      rw [hcarry, hhalf, hstep, Nat.mul_left_comm] at h
      omega
    simp only [if_pos hcarry]
    rw [if_neg (by omega)]
    exact atMost_finite (by omega) hle
  · simp only [if_neg hcarry]
    rw [if_neg (by omega)]
    exact atMost_finite hexponent h

/-- A quotient that is at most a number of the format is rounded to one that is. -/
theorem atMost_round (hprecision : 0 < f.precision) (hleast : f.minExponent ≤ 0) (hk : f.Counts k) (hden : 0 < den)
    (h : num ≤ k * den) : AtMost k (f.round false num den) := by
  obtain ⟨m, j, hm, hj, rfl⟩ := hk
  unfold Format.round
  by_cases hnum : num = 0
  · rw [if_pos hnum]
    exact atMost_finite (by omega) (Nat.zero_le _)
  · have hbelow : num < 2 ^ (f.precision + j) * den := by
      calc num ≤ m * 2 ^ j * den := h
        _ < 2 ^ f.precision * 2 ^ j * den :=
          Nat.mul_lt_mul_of_pos_right (Nat.mul_lt_mul_of_pos_right hm (Nat.two_pow_pos j)) hden
        _ = 2 ^ (f.precision + j) * den := by rw [Nat.pow_add]
    have hleading := leadingExponent_le hprecision hnum hbelow
    have hexponent : max (leadingExponent f.precision num den) f.minExponent ≤ j := by omega
    rw [if_neg hnum]
    exact atMost_pack hm hj hprecision hexponent
      (roundHalfEven_le_of_le (scaled_pos hden num _) (scaled_le hexponent h))

/-! ## Products of rounded numbers -/

theorem atMost_round_double (hk : Format.double.Counts k) (hden : 0 < den) (h : num ≤ k * den) :
    AtMost k (Format.double.round false num den) :=
  atMost_round (by decide) (by decide) hk hden h

theorem atMost_round_single (hk : Format.single.Counts k) (hden : 0 < den) (h : num ≤ k * den) :
    AtMost k (Format.single.round false num den) :=
  atMost_round (by decide) (by decide) hk hden h

/-- Numbers of fewer bits are doubles. -/
theorem counts_double (hk : Format.single.Counts k) : Format.double.Counts k := by
  obtain ⟨m, j, hm, hj, rfl⟩ := hk
  have hbits : 2 ^ Format.single.precision ≤ 2 ^ Format.double.precision := by decide
  have hrange : Format.single.maxExponent ≤ Format.double.maxExponent := by decide
  exact ⟨m, j, by omega, by omega, rfl⟩

/-- All natural numbers of 53 bits are doubles. -/
theorem counts_of_le (h : k ≤ 2 ^ 53) : Format.double.Counts k := by
  obtain ⟨m, j, hm, rfl⟩ := isExact_of_le h
  have hgreatest : Format.double.maxExponent = 971 := rfl
  rcases Nat.eq_zero_or_pos m with rfl | hpos
  · exact ⟨0, 0, hm, by omega, by simp⟩
  · have hpow : 2 ^ j ≤ 2 ^ 53 := (Nat.le_mul_of_pos_left _ hpos).trans h
    have hj : j ≤ 53 := (Nat.pow_le_pow_iff_right (by omega)).mp hpow
    exact ⟨m, j, hm, by omega, rfl⟩

theorem atMost_ofInt (hk : Format.double.Counts k) : AtMost k (ofInt k) := by
  have hsign : decide ((k : Int) < 0) = false := decide_eq_false (by omega)
  rw [ofInt, ofFraction, hsign]
  exact atMost_round_double hk Nat.one_pos (by simp)

theorem atMost_mul (hk : Format.double.Counts k) (hy : AtMost k y) (hx : AtMost 1 x) : AtMost k (mul y x) := by
  obtain ⟨m, e, rfl, hwhole⟩ := hy
  obtain ⟨m', e', rfl, hratio⟩ := hx
  refine atMost_round_double hk (Nat.mul_pos (fraction_pos false m e) (fraction_pos false m' e')) ?_
  have hle := Nat.mul_le_mul hwhole hratio
  rwa [Nat.one_mul, Nat.mul_assoc] at hle

theorem atMost_toSingle (hk : Format.single.Counts k) (hy : AtMost k y) : AtMost k y.toSingle := by
  obtain ⟨m, e, rfl, hwhole⟩ := hy
  obtain ⟨m', e', hrounded, hsingle⟩ := atMost_round_single hk (fraction_pos false m e) hwhole
  simp only [toSingle, hrounded]
  exact atMost_round_double (counts_double hk) (fraction_pos false m' e') hsingle

theorem nearest?_le (hy : AtMost k y) : ∃ q : Nat, y.nearest? = some (q : Int) ∧ q ≤ k := by
  obtain ⟨m, e, rfl, hwhole⟩ := hy
  exact ⟨_, rfl, roundHalfEven_le_of_le (fraction_pos false m e) hwhole⟩

end Binary64

namespace Number

open Binary64

variable {r : Number} {n : Nat}

/-- Is a natural number one of the format that a ratio is multiplied in? -/
def Counts : Number → Nat → Prop
  | .int _, _ => True
  | .double _, n => Format.double.Counts n
  | .single _, n => Format.single.Counts n

theorem atMost_one_of_double {x : Binary64} (hlow : lt (.int 0) (.double x) = true) (hhigh : le (.double x) (.int 1) = true) :
    AtMost 1 x := by
  cases x with
  | nan => simp [lt, compare?, compare?.intDouble] at hlow
  | infinite s => cases s <;> simp [lt, le, compare?, compare?.intDouble] at hlow hhigh
  | finite s m e =>
      have hpositive : 0 < (fraction s m e).1 := by
        simpa [lt, compare?, compare?.intDouble, Ordering.swap_eq_lt, Int.compare_eq_gt] using hlow
      have hone : (fraction s m e).1 < (fraction s m e).2 ∨ (fraction s m e).1 = (fraction s m e).2 := by
        simpa [le, compare?, compare?.intDouble, Int.compare_eq_lt] using hhigh
      exact atMost_one_of_between hpositive (by omega)

theorem atMost_one_of_single {x : Binary64} (hlow : lt (.int 0) (.single x) = true) (hhigh : le (.single x) (.int 1) = true) :
    AtMost 1 x := by
  have hzero : (ofInt 0).toSingle = .finite false 0 (-1074) := by decide
  have hone : (ofInt 1).toSingle = .finite false (2 ^ 52) (-52) := by decide
  simp only [lt, le, compare?, compare?.toSingle, hzero, hone] at hlow hhigh
  cases x with
  | nan => simp [Binary64.compare?] at hlow
  | infinite s => cases s <;> simp [Binary64.compare?] at hlow hhigh
  | finite s m e =>
      obtain ⟨d, hpos, hzeros⟩ := fraction_zero (-1074)
      have hones : fraction false (2 ^ 52) (-52) = (2 ^ 52, 2 ^ 52) := by decide
      simp only [Binary64.compare?, hzeros, hones] at hlow hhigh
      have hpositive : 0 < (fraction s m e).1 := by
        simpa [Int.compare_eq_lt, hpos] using hlow
      have hbelow : (fraction s m e).1 < (fraction s m e).2 ∨ (fraction s m e).1 = (fraction s m e).2 := by
        simpa [Int.compare_eq_lt, mul_comm] using hhigh
      exact atMost_one_of_between hpositive (by omega)

/-- A ratio's share of a whole is at most the whole, if its format counts that far. -/
theorem nearest?_share_le (hlow : lt (.int 0) r = true) (hhigh : le r (.int 1) = true) (hn : r.Counts n) :
    ∃ q : Nat, (r.share n).nearest? = some (q : Int) ∧ q ≤ n := by
  cases r with
  | int k =>
      have hone : k ≤ 1 := le_int.mp hhigh
      have hpos : 0 < k := by simpa [lt, compare?, Int.compare_eq_lt] using hlow
      obtain rfl : k = 1 := by omega
      exact ⟨n, by simp [share, nearest?], le_rfl⟩
  | double x => exact Binary64.nearest?_le (atMost_mul hn (atMost_ofInt hn) (atMost_one_of_double hlow hhigh))
  | single x =>
      have hdouble := counts_double hn
      have hproduct := atMost_mul hdouble (atMost_toSingle hn (atMost_ofInt hdouble)) (atMost_one_of_single hlow hhigh)
      exact Binary64.nearest?_le (atMost_toSingle hn hproduct)

end Number

end LayerStack
