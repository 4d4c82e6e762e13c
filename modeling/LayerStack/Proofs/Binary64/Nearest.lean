import LayerStack.Proofs.Number

/-!
# LayerStack.Proofs.Binary64.Nearest

The double that a natural number is rounded to.

A natural number is a double itself if it is 53 bits and zeros (`IsExact`).  Every other one lies between two of these, a
`spacing` apart, and is rounded to the nearer of them, `nearest`: no double is nearer (`nearest_le`), and the number is left
what it is exactly where it is a double (`nearest_eq_self_iff`).  Short of the range this is the integer that the rounded
number equals (`toInt?_ofInt`).
-/

namespace LayerStack.Binary64

variable {n k num den : Nat}

/-- A natural number that is a double, of whatever size: 53 bits and some zeros. -/
def IsExact (n : Nat) : Prop := ∃ mantissa exponent, mantissa < 2 ^ 53 ∧ n = mantissa * 2 ^ exponent

/-- How far apart doubles are from a number on, up to the next power of two. -/
def spacing (n : Nat) : Nat := 2 ^ (n.log2 - 52)

/-- The nearest double to a number, of two equally near ones the one with an even mantissa. -/
def nearest (n : Nat) : Nat := roundHalfEven n (spacing n) * spacing n

theorem spacing_pos (n : Nat) : 0 < spacing n := Nat.two_pow_pos _

/-! ## Rounding a quotient -/

theorem roundHalfEven_eq (num den : Nat) : roundHalfEven num den = num / den ∨ roundHalfEven num den = num / den + 1 := by
  simp only [roundHalfEven]
  split
  · exact .inr rfl
  · exact .inl rfl

/-- What is whole is not rounded. -/
theorem roundHalfEven_mul (hden : 0 < den) (k : Nat) : roundHalfEven (k * den) den = k := by
  simp only [roundHalfEven, Nat.mul_mod_left, Nat.mul_div_cancel k hden]
  split <;> omega

/-- No multiple of the denominator is nearer than the rounded one. -/
theorem roundHalfEven_le (hden : 0 < den) (k : Nat) :
    ((roundHalfEven num den * den : Nat) - num : Int).natAbs ≤ ((k * den : Nat) - num : Int).natAbs := by
  have hnum : num / den * den + num % den = num := by rw [Nat.mul_comm]; exact Nat.div_add_mod num den
  have hrest : num % den < den := Nat.mod_lt num hden
  have hstep : (num / den + 1) * den = num / den * den + den := by rw [Nat.add_mul, Nat.one_mul]
  -- The rounded multiple is at the lesser of the distances to both sides, and any other is past one of them.
  have hside : k * den ≤ num / den * den ∨ num / den * den + den ≤ k * den := by
    rcases Nat.lt_or_ge k (num / den + 1) with hk | hk
    · exact .inl (Nat.mul_le_mul_right den (Nat.le_of_lt_succ hk))
    · exact .inr (hstep ▸ Nat.mul_le_mul_right den hk)
  simp only [roundHalfEven]
  split
  · rw [hstep]
    omega
  · omega

/-! ## The nearest double -/

theorem isExact_of_le (h : n ≤ 2 ^ 53) : IsExact n := by
  rcases Nat.lt_or_eq_of_le h with hlt | rfl
  · exact ⟨n, 0, hlt, by omega⟩
  · exact ⟨1, 53, by omega, by omega⟩

/-- Doubles no smaller than the leading power of two of a number are multiples of its spacing. -/
theorem spacing_dvd (hk : IsExact k) (hle : 2 ^ n.log2 ≤ k) : spacing n ∣ k := by
  obtain ⟨mantissa, exponent, hmantissa, rfl⟩ := hk
  rcases Nat.lt_or_ge exponent (n.log2 - 52) with hlow | hhigh
  · exfalso
    have hbound : mantissa * 2 ^ exponent < 2 ^ 53 * 2 ^ exponent :=
      Nat.mul_lt_mul_of_pos_right hmantissa (Nat.two_pow_pos exponent)
    have hpow : 2 ^ 53 * 2 ^ exponent ≤ 2 ^ n.log2 := by
      rw [← Nat.pow_add]
      exact Nat.pow_le_pow_right (by omega) (by omega)
    omega
  · exact Dvd.dvd.mul_left (Nat.pow_dvd_pow 2 hhigh) mantissa

/-- The leading power of two of a number is a multiple of the spacing, if there is more than one bit to round. -/
theorem spacing_dvd_pow (n : Nat) : spacing n ∣ 2 ^ n.log2 := Nat.pow_dvd_pow 2 (Nat.sub_le _ _)

/-- No double is nearer to a number than the one it is rounded to. -/
theorem nearest_le (hn : n ≠ 0) (hk : IsExact k) : ((nearest n : Int) - n).natAbs ≤ ((k : Int) - n).natAbs := by
  have hrounded (j : Nat) (hj : spacing n ∣ j) : ((nearest n : Int) - n).natAbs ≤ ((j : Int) - n).natAbs := by
    obtain ⟨c, rfl⟩ := hj
    rw [Nat.mul_comm]
    exact roundHalfEven_le (spacing_pos n) c
  rcases Nat.lt_or_ge k (2 ^ n.log2) with hlow | hhigh
  · -- Below the leading power of two, which is a double itself and nearer.
    have hlead := hrounded _ (spacing_dvd_pow n)
    have hle : 2 ^ n.log2 ≤ n := Nat.log2_self_le hn
    have hcast : ((2 ^ n.log2 : Nat) : Int) ≤ n := by exact_mod_cast hle
    omega
  · exact hrounded k (spacing_dvd hk hhigh)

/-- A quotient by the spacing is rounded to 53 bits, or to one bit and 53 zeros. -/
theorem roundHalfEven_spacing_le (n : Nat) : roundHalfEven n (spacing n) ≤ 2 ^ 53 := by
  have hdiv : n / spacing n < 2 ^ 53 := by
    rw [Nat.div_lt_iff_lt_mul (spacing_pos n), spacing, ← Nat.pow_add]
    exact Nat.lt_log2_self.trans_le (Nat.pow_le_pow_right (by omega) (by omega))
  have hrounded := roundHalfEven_eq n (spacing n)
  omega

/-- What a number is rounded to is a double. -/
theorem isExact_nearest (n : Nat) : IsExact (nearest n) := by
  rcases Nat.lt_or_eq_of_le (roundHalfEven_spacing_le n) with hbits | hcarry
  · exact ⟨_, _, hbits, rfl⟩
  · refine ⟨1, 53 + (n.log2 - 52), by omega, ?_⟩
    rw [nearest, hcarry, spacing, Nat.pow_add, Nat.one_mul]

/-- A number is left what it is exactly where it is a double. -/
theorem nearest_eq_self_iff (hn : n ≠ 0) : nearest n = n ↔ IsExact n := by
  constructor
  · intro h
    rw [← h]
    exact isExact_nearest n
  · intro h
    have hle := nearest_le hn h
    omega

/-- Numbers of many bits are rounded to numbers of many bits. -/
theorem le_nearest (h : 2 ^ 53 ≤ n) : 2 ^ 53 ≤ nearest n := by
  have hn : n ≠ 0 := by omega
  have hlog : 53 ≤ n.log2 := (Nat.le_log2 hn).mpr h
  have hlead : 2 ^ n.log2 ≤ n := Nat.log2_self_le hn
  have hdiv : 2 ^ 52 ≤ n / spacing n := by
    rw [Nat.le_div_iff_mul_le (spacing_pos n), spacing, ← Nat.pow_add]
    exact (Nat.pow_le_pow_right (by omega) (by omega)).trans hlead
  have hrounded : 2 ^ 52 ≤ roundHalfEven n (spacing n) := by
    have hround := roundHalfEven_eq n (spacing n)
    omega
  have hspacing : 2 ^ 1 ≤ spacing n := Nat.pow_le_pow_right (by omega) (by omega)
  calc
    2 ^ 53 = 2 ^ 52 * 2 ^ 1 := rfl
    _ ≤ roundHalfEven n (spacing n) * spacing n := Nat.mul_le_mul hrounded hspacing

/-! ## Within the range -/

/-- Short of the range a number is rounded to one short of it. -/
theorem nearest_lt_overflow (hn : n ≠ 0) (h : n < overflow) : nearest n < overflow := by
  have hlog : n.log2 < 1024 := by
    rcases Nat.lt_or_ge n.log2 1024 with hbits | hbits
    · exact hbits
    · have hlarge : 2 ^ 1024 ≤ n := by rwa [← Nat.le_log2 hn]
      exact absurd (overflow_le.trans hlarge) (Nat.not_le.mpr h)
  have hle := roundHalfEven_spacing_le n
  rcases Nat.lt_or_ge n.log2 1023 with hbits | hbits
  · -- Fewer bits than the greatest double: at most the next power of two.
    have hspacing : spacing n ≤ 2 ^ 970 := by
      rw [spacing]
      gcongr <;> omega
    have hbound : nearest n ≤ 2 ^ 53 * 2 ^ 970 := Nat.mul_le_mul hle hspacing
    have hstrict : 2 ^ 53 * 2 ^ 970 < overflow := by
      unfold overflow
      omega
    omega
  · -- As many: it is rounded down from the next power of two.
    have hlast : n.log2 = 1023 := by omega
    have hspacing : spacing n = 2 ^ 971 := by rw [spacing, hlast]
    have hhigh : n < 2 ^ 1024 := by rwa [← Nat.log2_lt hn]
    have hlow : 2 ^ n.log2 ≤ n := Nat.log2_self_le hn
    rw [hlast] at hlow
    have hdown : roundHalfEven n (2 ^ 971) ≠ 2 ^ 53 := by
      rw [Ne, roundHalfEven_greatest hlow hhigh]
      omega
    rw [nearest, hspacing]
    rw [hspacing] at hle
    have hbound : roundHalfEven n (2 ^ 971) * 2 ^ 971 ≤ (2 ^ 53 - 1) * 2 ^ 971 := Nat.mul_le_mul_right _ (by omega)
    have hstrict : (2 ^ 53 - 1) * 2 ^ 971 < overflow := by
      unfold overflow
      omega
    omega

/-- A packed number whose last bit is no fraction is an integer. -/
theorem toInt?_pack {mantissa exponent : Nat} (h : ¬ ∃ s, Format.double.pack false mantissa exponent = .infinite s) :
    (Format.double.pack false mantissa exponent).toInt? = some ((mantissa * 2 ^ exponent : Nat) : Int) := by
  have whole (m e : Nat) : toInt? (.finite false m e) = some ((m * 2 ^ e : Nat) : Int) := by simp [toInt?, fraction]
  have hprecision : Nat.pow 2 Format.double.precision = 2 ^ 53 := rfl
  rw [pack_eq_infinite] at h
  by_cases hcarry : mantissa = 2 ^ 53
  · have hpack : Format.double.pack false mantissa exponent = .finite false (2 ^ 52) ((exponent + 1 : Nat) : Int) := by
      have hrange : ¬ Format.double.maxExponent < (exponent : Int) + 1 := by
        have hgreatest : Format.double.maxExponent = 971 := rfl
        omega
      simp only [Format.pack, hprecision, if_pos hcarry, if_neg hrange]
      rfl
    have hvalue : 2 ^ 52 * 2 ^ (exponent + 1) = 2 ^ 53 * 2 ^ exponent := by rw [Nat.pow_succ]; omega
    rw [hpack, whole, hcarry, hvalue]
  · have hpack : Format.double.pack false mantissa exponent = .finite false mantissa exponent := by
      have hrange : ¬ Format.double.maxExponent < (exponent : Int) := by
        have hgreatest : Format.double.maxExponent = 971 := rfl
        omega
      simp only [Format.pack, hprecision, if_neg hcarry, if_neg hrange]
    rw [hpack, whole]

/-- A number of fewer bits than a mantissa is kept with zeros behind the point. -/
theorem toInt?_round_of_lt (hn : n ≠ 0) (h : n.log2 < 52) : (Format.double.round false n 1).toInt? = some (n : Int) := by
  have hexponent : ¬ 0 ≤ (n.log2 : Int) - 52 := by omega
  have hzeros : (-((n.log2 : Int) - 52)).toNat = 52 - n.log2 := by omega
  have hscaled : scaled n 1 (n.log2 - 52) = (n * 2 ^ (52 - n.log2), 1) := by
    rw [scaled, if_neg hexponent, hzeros]
    rfl
  have hwhole : roundHalfEven (n * 2 ^ (52 - n.log2)) 1 = n * 2 ^ (52 - n.log2) := by
    simpa using roundHalfEven_mul Nat.one_pos (n * 2 ^ (52 - n.log2))
  have hbits : n * 2 ^ (52 - n.log2) < 2 ^ 53 := by
    calc
      n * 2 ^ (52 - n.log2) < 2 ^ (n.log2 + 1) * 2 ^ (52 - n.log2) :=
        Nat.mul_lt_mul_of_pos_right Nat.lt_log2_self (Nat.two_pow_pos _)
      _ = 2 ^ 53 := by
        rw [← Nat.pow_add]
        congr 1
        omega
  have hpack : Format.double.pack false (n * 2 ^ (52 - n.log2)) (n.log2 - 52) =
      .finite false (n * 2 ^ (52 - n.log2)) (n.log2 - 52) := by
    have hprecision : Nat.pow 2 Format.double.precision = 2 ^ 53 := rfl
    have hrange : ¬ Format.double.maxExponent < (n.log2 : Int) - 52 := by
      have hgreatest : Format.double.maxExponent = 971 := rfl
      omega
    simp only [Format.pack, hprecision, if_neg (Nat.ne_of_lt hbits), if_neg hrange]
  rw [round_natural hn, hscaled, hwhole, hpack]
  simp only [toInt?, fraction, if_neg hexponent, hzeros, Bool.false_eq_true, if_false, Nat.pow_eq, Nat.cast_mul,
    Int.mul_emod_left, if_true]
  rw [Int.mul_ediv_cancel]
  exact_mod_cast (Nat.two_pow_pos _).ne'

/-- Short of the range the integer that a rounded number equals is the nearest double. -/
theorem toInt?_ofInt (hn : n ≠ 0) (h : n < overflow) : (ofInt n).toInt? = some (nearest n : Int) := by
  have hround : ofInt n = Format.double.round false n 1 := by
    have hsign : decide ((n : Int) < 0) = false := decide_eq_false (by omega)
    rw [ofInt, ofFraction, hsign]
    rfl
  have hfinite : ¬ ∃ s, ofInt n = .infinite s := by
    rw [← isSome_ofInt?_iff, isSome_ofInt?]
    exact h
  rw [hround] at hfinite ⊢
  rcases Nat.lt_or_ge n.log2 52 with hbits | hbits
  · have hexact : nearest n = n := by
      have hspacing : spacing n = 1 := by
        have hzero : n.log2 - 52 = 0 := by omega
        rw [spacing, hzero, Nat.pow_zero]
      have hwhole := roundHalfEven_mul Nat.one_pos n
      rw [Nat.mul_one] at hwhole
      rw [nearest, hspacing, hwhole, Nat.mul_one]
    rw [hexact, toInt?_round_of_lt hn hbits]
  · have hexponent : (n.log2 : Int) - 52 = ((n.log2 - 52 : Nat) : Int) := by omega
    rw [round_natural hn, hexponent, scaled_natural] at hfinite ⊢
    exact toInt?_pack hfinite

end LayerStack.Binary64
