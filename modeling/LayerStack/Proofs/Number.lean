import LayerStack.Layer.Config
import Mathlib.Algebra.Order.Field.Rat
import Mathlib.Data.Rat.Cast.Order

/-!
# LayerStack.Proofs.Number

Numbers by their exact values.

Two facts about doubles carry what is said of parameters elsewhere.  An integer has a double exactly where its size is
below `Binary64.overflow`, the point halfway from the greatest double to the next power of two (`isSome_ofInt?`).  And
integers and doubles are in the order of the rationals they are (`Number.lt_iff`, `Number.le_iff`): comparing them rounds
nothing.
-/

namespace LayerStack

/-! ## Which integers have a double -/

namespace Binary64

/-- The least natural number that rounds past the greatest double: halfway from that to the next power of two. -/
@[irreducible]
def overflow : Nat := 2 ^ 1024 - 2 ^ 970

theorem le_overflow : 2 ^ 1023 ≤ overflow := by
  unfold overflow
  omega

theorem overflow_le : overflow ≤ 2 ^ 1024 := by
  unfold overflow
  omega

/-- Of a natural number, 53 bits are left before the point by the power of two 52 below its leading one. -/
theorem leadingExponent_natural {n : Nat} (hn : n ≠ 0) : leadingExponent 53 n 1 = (n.log2 : Int) - 52 := by
  have hlow : 2 ^ n.log2 ≤ n := Nat.log2_self_le hn
  have hguess : (n.log2 : Int) - (Nat.log2 1 : Nat) - (53 : Nat) + 1 = (n.log2 : Int) - 52 := by
    have hone : Nat.log2 1 = 0 := by decide
    rw [hone]
    omega
  simp only [leadingExponent, hguess, scaled, Nat.pow_eq, Nat.one_mul]
  refine if_neg (Nat.not_lt.mpr ?_)
  split
  · have hpow : 2 ^ ((n.log2 : Int) - 52).toNat * 2 ^ (53 - 1) = 2 ^ n.log2 := by
      rw [← Nat.pow_add]
      congr 1
      omega
    rw [hpow]
    exact hlow
  · have hpow : 2 ^ (53 - 1) = 2 ^ n.log2 * 2 ^ (-((n.log2 : Int) - 52)).toNat := by
      rw [← Nat.pow_add]
      congr 1
      omega
    rw [Nat.one_mul, hpow]
    exact Nat.mul_le_mul_right _ hlow

/-- So that is the power of two a natural number is rounded to. -/
theorem round_natural {n : Nat} (hn : n ≠ 0) (negative : Bool) :
    Format.double.round negative n 1 = Format.double.pack negative
      (roundHalfEven (scaled n 1 (n.log2 - 52)).1 (scaled n 1 (n.log2 - 52)).2) (n.log2 - 52) := by
  have hexponent : max (leadingExponent Format.double.precision n 1) Format.double.minExponent =
      (n.log2 : Int) - 52 := by
    have hleading : leadingExponent Format.double.precision n 1 = (n.log2 : Int) - 52 := leadingExponent_natural hn
    have hleast : Format.double.minExponent = -1074 := rfl
    rw [hleading, hleast]
    omega
  rw [Format.round, if_neg hn, hexponent]

theorem scaled_natural (n exponent : Nat) : scaled n 1 (exponent : Int) = (n, 2 ^ exponent) := by
  simp [scaled]

/-- Of the numbers with 1024 bits, those from `overflow` on round up to the next power of two. -/
theorem roundHalfEven_greatest {n : Nat} (hlow : 2 ^ 1023 ≤ n) (hhigh : n < 2 ^ 1024) :
    roundHalfEven n (2 ^ 971) = 2 ^ 53 ↔ overflow ≤ n := by
  unfold roundHalfEven overflow
  simp only
  split <;> omega

/-- Packing runs over past the greatest exponent, or where a mantissa of one bit too many leads past it. -/
theorem pack_eq_infinite {negative : Bool} {mantissa : Nat} {exponent : Int} :
    (∃ s, Format.double.pack negative mantissa exponent = .infinite s) ↔
      971 < exponent ∨ exponent = 971 ∧ mantissa = 2 ^ 53 := by
  have hprecision : Nat.pow 2 Format.double.precision = 2 ^ 53 := rfl
  have hgreatest : Format.double.maxExponent = 971 := rfl
  simp only [Format.pack, hprecision, hgreatest]
  by_cases hcarry : mantissa = 2 ^ 53
  · simp only [if_pos hcarry]
    split <;> simp <;> omega
  · simp only [if_neg hcarry]
    split <;> simp <;> omega

/-- An integer has a double where rounding it stays in the range. -/
theorem isSome_ofInt?_iff (n : Int) : (ofInt? n).isSome ↔ ¬ ∃ s, ofInt n = .infinite s := by
  unfold ofInt? ofInt
  split
  · next s h => simp [h]
  · next h => simpa using h

/-- An integer has a double exactly where it is below `overflow`, whatever its sign. -/
theorem isSome_ofInt? (n : Int) : (ofInt? n).isSome ↔ n.natAbs < overflow := by
  rw [isSome_ofInt?_iff, ofInt, ofFraction]
  by_cases hzero : n.natAbs = 0
  · have hlow := le_overflow
    rw [Format.round, if_pos hzero]
    simp only [reduceCtorEq, exists_false, not_false_eq_true, true_iff]
    omega
  · rw [round_natural hzero, pack_eq_infinite]
    rcases Nat.lt_trichotomy n.natAbs.log2 1023 with hbits | hbits | hbits
    · -- Fewer bits than the greatest double: below every bound.
      have hsmall : n.natAbs < 2 ^ 1023 := by rwa [← Nat.log2_lt hzero]
      have hbelow : n.natAbs < overflow := hsmall.trans_le le_overflow
      simp only [hbelow, iff_true]
      omega
    · -- As many: it hangs on the rounding.
      have hlow : 2 ^ n.natAbs.log2 ≤ n.natAbs := Nat.log2_self_le hzero
      have hhigh : n.natAbs < 2 ^ 1024 := by rw [← Nat.log2_lt hzero, hbits]; exact Nat.lt_succ_self _
      rw [hbits] at hlow ⊢
      have hexponent : ((1023 : Nat) : Int) - 52 = (971 : Nat) := rfl
      rw [hexponent, scaled_natural, roundHalfEven_greatest hlow hhigh]
      omega
    · -- More: past every double.
      have hlarge : 2 ^ 1024 ≤ n.natAbs := by rwa [← Nat.le_log2 hzero]
      have habove : ¬ n.natAbs < overflow := Nat.not_lt.mpr (overflow_le.trans hlarge)
      simp only [habove, iff_false, not_not]
      omega

theorem fraction_pos (negative : Bool) (mantissa : Nat) (exponent : Int) :
    0 < (fraction negative mantissa exponent).2 := by
  unfold fraction
  by_cases h : 0 ≤ exponent <;> simp [h]

/-- A fraction of zero is of a mantissa of zero. -/
theorem mantissa_of_fraction {negative : Bool} {mantissa : Nat} {exponent : Int}
    (h : (fraction negative mantissa exponent).1 = 0) : mantissa = 0 := by
  unfold fraction at h
  by_cases hexponent : 0 ≤ exponent <;> cases negative <;> simpa [hexponent] using h

end Binary64

/-! ## Exact values -/

namespace Number

/-- The fraction a number is.  There is none for infinities and for what is not a number, and none for a single-precision
value, beside which numbers are rounded. -/
def ratio? : Number → Option (Int × Nat)
  | .int n => some (n, 1)
  | .double (.finite negative mantissa exponent) => some (Binary64.fraction negative mantissa exponent)
  | _ => none

/-- The exact value of a number that has a fraction. -/
def rational? (a : Number) : Option ℚ := a.ratio?.map fun f => f.1 / f.2

variable {a b x : Number} {f g : Int × Nat} {p q r : ℚ}

theorem ratio?_pos (h : a.ratio? = some f) : 0 < f.2 := by
  unfold ratio? at h
  split at h
  · obtain rfl := Option.some.inj h
    exact Nat.one_pos
  · obtain rfl := Option.some.inj h
    exact Binary64.fraction_pos _ _ _
  · contradiction

/-- Fractions are compared by their crosswise products. -/
theorem compare?_of_ratio (hf : a.ratio? = some f) (hg : b.ratio? = some g) :
    compare? a b = some (compare (f.1 * g.2) (g.1 * f.2)) := by
  unfold ratio? at hf hg
  split at hf <;> split at hg <;> try contradiction
  all_goals
    rw [← Option.some.inj hf, ← Option.some.inj hg]
    simp [compare?, compare?.intDouble, Binary64.compare?, Int.compare_swap]

/-- The order of two numbers is that of their exact values. -/
theorem compare?_of_exact (hp : a.rational? = some p) (hq : b.rational? = some q) :
    ∃ o, compare? a b = some o ∧ (o = .lt ↔ p < q) ∧ (o = .eq ↔ p = q) := by
  obtain ⟨f, hf, rfl⟩ := Option.map_eq_some_iff.mp hp
  obtain ⟨g, hg, rfl⟩ := Option.map_eq_some_iff.mp hq
  have hd : (0 : ℚ) < f.2 := by exact_mod_cast ratio?_pos hf
  have he : (0 : ℚ) < g.2 := by exact_mod_cast ratio?_pos hg
  refine ⟨_, compare?_of_ratio hf hg, ?_, ?_⟩
  · rw [Int.compare_eq_lt, div_lt_div_iff₀ hd he]
    exact_mod_cast Iff.rfl
  · rw [Int.compare_eq_eq, div_eq_div_iff hd.ne' he.ne']
    exact_mod_cast Iff.rfl

theorem lt_iff (hp : a.rational? = some p) (hq : b.rational? = some q) : lt a b ↔ p < q := by
  obtain ⟨o, ho, hlt, _⟩ := compare?_of_exact hp hq
  rw [lt, ho, beq_iff_eq, Option.some.injEq, hlt]

theorem le_iff (hp : a.rational? = some p) (hq : b.rational? = some q) : le a b ↔ p ≤ q := by
  obtain ⟨o, ho, hlt, heq⟩ := compare?_of_exact hp hq
  rw [le, ho, Bool.or_eq_true, beq_iff_eq, beq_iff_eq, Option.some.injEq, Option.some.injEq, hlt, heq, le_iff_lt_or_eq]

theorem le_int {m n : Int} : le (.int m) (.int n) ↔ m ≤ n := by
  rw [le_iff (a := .int m) (b := .int n) rfl rfl, div_le_div_iff_of_pos_right (by norm_num)]
  exact_mod_cast Iff.rfl

/-- A double between two exact values has one of its own: it is neither infinite nor no number at all. -/
theorem exists_exact_of_between {y : Binary64} (hp : a.rational? = some p) (hr : b.rational? = some r)
    (hlow : le a (.double y)) (hhigh : le (.double y) b) : ∃ q, rational? (.double y) = some q := by
  obtain ⟨f, hf, -⟩ := Option.map_eq_some_iff.mp hp
  obtain ⟨g, hg, -⟩ := Option.map_eq_some_iff.mp hr
  unfold ratio? at hf hg
  cases y with
  | finite negative mantissa exponent => exact ⟨_, rfl⟩
  | nan => split at hf <;> simp [le, compare?, compare?.intDouble, Binary64.compare?] at hlow hf
  | infinite negative =>
      cases negative with
      | true => split at hf <;> simp [le, compare?, compare?.intDouble, Binary64.compare?] at hlow hf
      | false => split at hg <;> simp [le, compare?, compare?.intDouble, Binary64.compare?] at hhigh hg

end Number

/-! ## Plain numbers -/

namespace Rule

/-- Integers and doubles are compared as the numbers they are: neither makes the other a machine number. -/
theorem isAtMost_of_number? {v w : Value} {x y : Number} (hx : LayerConfig.number? v = some x)
    (hy : LayerConfig.number? w = some y) : isAtMost v w = .ok (Number.le x y) := by
  unfold LayerConfig.number? at hx hy
  split at hx <;> split at hy <;> try contradiction
  all_goals
    rw [← Option.some.inj hx, ← Option.some.inj hy]
    rfl

/-- A number that obeys a range is between its bounds. -/
theorem between_of_holds {least greatest v : Value} {a b x : Number} (ha : LayerConfig.number? least = some a) (hb : LayerConfig.number? greatest = some b)
    (hx : LayerConfig.number? v = some x) (h : (Rule.range least greatest).holds v = .ok true) :
    Number.le a x ∧ Number.le x b := by
  simp only [holds] at h
  split at h
  · rw [isBetween, isAtMost_of_number? ha hx, isAtMost_of_number? hx hb] at h
    cases hlow : Number.le a x with
    | false => simp [hlow, bind, Except.bind, pure, Except.pure] at h
    | true =>
        have hhigh : Number.le x b = true := by simpa [hlow, bind, Except.bind] using h
        exact ⟨rfl, hhigh⟩
  · contradiction

end Rule

end LayerStack
