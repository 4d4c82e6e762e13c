import LayerStack.Proofs.Scalar.Real
import LayerStack.Optimizer
import LayerStack.Proofs.Binary64.Share
import LayerStack.Proofs.Tensor.Place

/-!
# LayerStack.Proofs.Optimizer.Setting

Settings that are single numbers.

Such a setting is the same for all entries of a tensor (`spread?_number`).  From zero up to one, its powers are those of the
real number it is (`power?_of_isDecay`), and every one of them has a double (`hasPower_of_isDecay`).
-/

namespace LayerStack

/-- A number without axes is repeated everywhere. -/
theorem Tensor.stretch?_number {α : Type} (a : α) : (s : Dims) → stretch? (s := []) a s = some (fill a s)
  | [] => stretch?_self (s := []) a
  | n :: s => by
      have hlonger : ¬ ([] : Dims) = n :: s := by simp
      have hshorter : ([] : Dims).length ≤ s.length := Nat.zero_le _
      rw [stretch?, dif_neg hlonger]
      simp only [if_pos hshorter]
      rw [stretch?_number a s]
      rfl

namespace Setting

variable {α : Type} [Scalar α] {v : Value} {a : α} {s : Dims}

/-- Is a setting a single number? -/
structure Is (v : Value) (a : α) : Prop where
  single : ∀ items, v ≠ .array items
  number : number? v = some a

/-- Is a setting a single number from zero up to one? -/
structure IsDecay (v : Value) (b : ℝ) : Prop extends Is v b where
  nonneg : 0 ≤ b
  lt_one : b < 1

/-- Is a setting a single number that has a double? -/
structure IsPlain (v : Value) : Prop where
  exists_is : ∃ x : ℝ, Is v x
  isDouble : Setting.isDouble v

theorem spread?_number {f : Value → Option α} (h : ∀ items, v ≠ .array items) (hf : f v = some a) :
    spread? f s v = some (Tensor.fill a s) := by
  have htensor : tensor? f v = some ⟨[], a⟩ := by
    cases v with
    | array items => exact absurd rfl (h items)
    | _ => simp only [tensor?, hf, Option.map_some]
  rw [spread?, htensor]
  exact Tensor.stretch?_number a s

theorem isNumeric_of_is (h : Is v a) : isNumeric v := by
  obtain ⟨x, hx, _⟩ := Option.map_eq_some_iff.mp h.number
  cases v with
  | array items => exact absurd rfl (h.single items)
  | _ => simp only [isNumeric, hx, Option.isSome_some]

/-- A double is the rational number that it is exactly. -/
theorem is_float {x : Binary64} {q : ℚ} (h : Number.rational? (.double x) = some q) : Is (.float x) (q : ℝ) where
  single := by simp
  number := by
    show some ((Number.rational? (.double x)).getD 0 : ℝ) = _
    rw [h, Option.getD_some]

theorem is_int (n : Int) : Is (.int n) (n : ℝ) where
  single := by simp
  number := congrArg some (ExactField.ofNumber_int n)

/-! ## Powers -/

variable {b : ℝ} {k : Nat} {x : Number}

/-- The integers from zero up to one are zero alone. -/
theorem eq_zero_of_between {n : Int} (hlow : (0 : ℝ) ≤ Scalar.ofNumber (.int n))
    (hhigh : (Scalar.ofNumber (.int n) : ℝ) < 1) : n = 0 := by
  rw [ExactField.ofNumber_int] at hlow hhigh
  have hpositive : 0 ≤ n := by exact_mod_cast hlow
  have hbelow : n < 1 := by exact_mod_cast hhigh
  omega

theorem IsDecay.eq_zero {n : Int} (h : IsDecay (.int n) b) : n = 0 := by
  obtain rfl : Scalar.ofNumber (.int n) = b := Option.some.inj h.number
  exact eq_zero_of_between h.nonneg h.lt_one

/-- Of an integer from zero up to one the powers are zero. -/
theorem integerPower?_of_between (hx : v.quantity? = some x) (hlow : (0 : ℝ) ≤ Scalar.ofNumber x)
    (hhigh : (Scalar.ofNumber x : ℝ) < 1) (hk : 0 < k) :
    integerPower? k v = none ∨ integerPower? k v = some 0 ∧ x = .int 0 := by
  have hpow : Int.pow 0 k = 0 := Int.zero_pow hk.ne'
  have hwrap (t : WordType) : t.wrap 0 = 0 := by cases t <;> rfl
  cases v with
  | int n =>
      obtain rfl : Number.int n = x := Option.some.inj hx
      obtain rfl := eq_zero_of_between hlow hhigh
      exact .inr ⟨congrArg some hpow, rfl⟩
  | bool c =>
      obtain rfl : Number.int (if c then 1 else 0) = x := Option.some.inj hx
      have hzero := eq_zero_of_between hlow hhigh
      cases c with
      | true => simp at hzero
      | false => exact .inr ⟨by simp [integerPower?, hk.ne'], rfl⟩
  | scalar t =>
      cases ht : t.integer? with
      | none => exact .inl (by simp [integerPower?, ht])
      | some p =>
          obtain ⟨type, n⟩ := p
          have hn : (Value.scalar t).quantity? = some (.int n) := by
            cases t <;> cases ht <;> rfl
          obtain rfl : Number.int n = x := Option.some.inj (hn.symm.trans hx)
          obtain rfl := eq_zero_of_between hlow hhigh
          refine .inr ⟨?_, rfl⟩
          simp only [integerPower?, ht, Option.map_some, hpow, hwrap]
  | _ => exact .inl rfl

/-- The powers of a number from zero up to one are those of a real number. -/
theorem power?_of_isDecay (h : IsDecay v b) (hk : 0 < k) : power? k v = some (b ^ k) := by
  obtain ⟨x, hx, rfl⟩ := Option.map_eq_some_iff.mp h.number
  unfold power?
  rcases integerPower?_of_between hx h.nonneg h.lt_one hk with hnone | ⟨hzero, rfl⟩
  · simp only [hnone, hx, Option.map_some]
  · have hcast : (Scalar.ofNumber (.int 0) : ℝ) = 0 := (ExactField.ofNumber_int 0).trans Int.cast_zero
    simp only [hzero, hcast, Option.some.injEq]
    exact (zero_pow hk.ne').symm

/-- A fraction that is at most a number of the format has a double that is. -/
theorem atMost_ofFraction {num : Int} {den n : Nat} (hn : Binary64.Format.double.Counts n) (hlow : 0 ≤ num)
    (hden : 0 < den) (hhigh : num ≤ n * den) : Binary64.AtMost n (Binary64.ofFraction num den) := by
  have hsign : decide (num < 0) = false := decide_eq_false (not_lt.mpr hlow)
  have hle : num.natAbs ≤ n * den := by
    zify
    rwa [abs_of_nonneg hlow]
  rw [Binary64.ofFraction, hsign]
  exact Binary64.atMost_round_double hn hden hle

/-- A real number from zero to one has a finite double. -/
theorem exists_finite_ofReal (hlow : 0 ≤ b) (hhigh : b ≤ 1) : ∃ m e, Binary64.ofReal b = .finite false m e := by
  have hpower : (0 : ℝ) < 2 ^ 1075 := pow_pos two_pos _
  have hbelow : 0 ≤ ⌊b * 2 ^ 1075⌋ := Int.floor_nonneg.mpr (mul_nonneg hlow hpower.le)
  have habove : ⌊b * 2 ^ 1075⌋ ≤ 2 ^ 1075 := by
    have hle : b * 2 ^ 1075 ≤ ((2 ^ 1075 : Int) : ℝ) := by
      rw [Int.cast_pow, Int.cast_ofNat]
      exact mul_le_of_le_one_left hpower.le hhigh
    exact_mod_cast (Int.floor_le _).trans hle
  have hdouble : Binary64.AtMost 2 (Binary64.ofReal b) := by
    refine atMost_ofFraction (Binary64.counts_of_le (by decide)) ?_ (pow_pos two_pos _) ?_
    · split <;> omega
    · have hden : ((2 : Nat) : Int) * ((2 ^ 1076 : Nat) : Int) = 2 * (2 * 2 ^ 1075) := by
        rw [Nat.cast_pow, pow_succ', Nat.cast_ofNat]
      have hone : (1 : Int) ≤ 2 ^ 1075 := one_le_pow₀ (by decide)
      rw [hden]
      generalize (2 : Int) ^ 1075 = power at *
      split <;> omega
  obtain ⟨m, e, hfinite, _⟩ := hdouble
  exact ⟨m, e, hfinite⟩

/-- So no power of it runs over. -/
theorem overruns_eq_false (hlow : 0 ≤ b) (hhigh : b < 1) (k : Nat) : Scalar.overruns b k = false := by
  obtain ⟨m, e, hpower⟩ := exists_finite_ofReal (pow_nonneg hlow k) (pow_le_one₀ hlow hhigh.le)
  have hdouble : Scalar.toBinary64 (b ^ k) = .finite false m e := hpower
  rw [Scalar.overruns, hdouble]
  cases Scalar.toBinary64 b <;> rfl

theorem hasPower_of_isDecay (h : IsDecay v b) (hk : 0 < k) : hasPower ℝ k v := by
  cases v with
  | int n =>
      obtain rfl := h.eq_zero
      have hpow : Int.pow 0 k = 0 := Int.zero_pow hk.ne'
      simp only [hasPower, hpow]
      rfl
  | float y =>
      obtain rfl : Scalar.ofNumber (.double y) = b := Option.some.inj h.number
      simp only [hasPower, overruns_eq_false h.nonneg h.lt_one, Bool.not_false]
  | _ => rfl

/-! ## What settings let a step come to -/

/-- A real tensor is none of words. -/
theorem isWords_eq_false (x : AnyTensor ℝ) : x.isWords = false :=
  Tensor.foldl_induction (P := fun found => found = false) (fun found _ hfound => by rw [hfound]; rfl) x.value rfl

/-- A real tensor can be multiplied by every setting that has a double. -/
theorem scales_of_isDouble (h : isDouble v) : scales v false := by
  cases v with
  | int n => exact h
  | _ => rfl

theorem isPlain_of_isDecay (h : IsDecay v b) : IsPlain v := by
  refine ⟨⟨b, h.toIs⟩, ?_⟩
  cases v with
  | int n =>
      obtain rfl := h.eq_zero
      rfl
  | _ => rfl

end Setting

/-! ## Adam -/

namespace OptimizerSettings

variable {o : OptimizerSettings} {beta1 beta2 epsilon weightDecay rate : Value} {b1 b2 : ℝ} {count : Nat} {s : Dims}

/-- What every number of a tensor follows: the two decays and their powers. -/
theorem pick_paces?_adam (hrule : o.rule = .adam beta1 beta2 epsilon weightDecay) (h1 : Setting.IsDecay beta1 b1)
    (h2 : Setting.IsDecay beta2 b2) (hcount : 0 < count) {paces : Tensor (Pace ℝ) s}
    (hpaces : o.paces? rate count s = some paces) (p : Place s) :
    ∃ e w r, paces.pick p = ⟨.adam b1 b2 e w, (b1 ^ count, b2 ^ count), r⟩ := by
  have hnumber1 := Setting.spread?_number (s := s) h1.single h1.number
  have hnumber2 := Setting.spread?_number (s := s) h2.single h2.number
  have hpower1 := Setting.spread?_number (s := s) h1.single (Setting.power?_of_isDecay h1 hcount)
  have hpower2 := Setting.spread?_number (s := s) h2.single (Setting.power?_of_isDecay h2 hcount)
  rw [paces?, hrule] at hpaces
  simp only [Option.bind_eq_bind, Option.bind_eq_some_iff, hnumber1, hnumber2, hpower1, hpower2,
    Option.some.injEq, exists_eq_left'] at hpaces
  obtain ⟨rates, _, epsilons, _, decays, _, hmade⟩ := hpaces
  obtain rfl := Option.some.inj hmade
  exact ⟨epsilons.pick p, decays.pick p, rates.pick p, by simp [Tensor.zip]⟩

/-- Are the settings those of Adam, every one a single number that has a double, and the decays from zero up to one? -/
structure IsPlainAdam (o : OptimizerSettings) : Prop where
  exists_adam : ∃ beta1 beta2 epsilon weightDecay, o.rule = .adam beta1 beta2 epsilon weightDecay ∧
    (∃ b, Setting.IsDecay beta1 b) ∧ (∃ b, Setting.IsDecay beta2 b) ∧ Setting.IsPlain epsilon ∧
    Setting.IsPlain weightDecay

/-- Plain settings are numbers on any axes. -/
theorem isSome_paces? (h : o.IsPlainAdam) (hrate : Setting.IsPlain rate) (hcount : 0 < count) (s : Dims) :
    (o.paces? (α := ℝ) rate count s).isSome := by
  obtain ⟨beta1, beta2, epsilon, weightDecay, hrule, ⟨b1, h1⟩, ⟨b2, h2⟩, ⟨⟨e, he⟩, _⟩, ⟨⟨w, hw⟩, _⟩⟩ := h.exists_adam
  obtain ⟨⟨r, hr⟩, _⟩ := hrate
  have hnumber1 := Setting.spread?_number (s := s) h1.single h1.number
  have hnumber2 := Setting.spread?_number (s := s) h2.single h2.number
  have hpower1 := Setting.spread?_number (s := s) h1.single (Setting.power?_of_isDecay h1 hcount)
  have hpower2 := Setting.spread?_number (s := s) h2.single (Setting.power?_of_isDecay h2 hcount)
  have hepsilon := Setting.spread?_number (s := s) he.single he.number
  have hdecay := Setting.spread?_number (s := s) hw.single hw.number
  have hnumber := Setting.spread?_number (s := s) hr.single hr.number
  rw [paces?, hrule]
  simp only [hnumber, hnumber1, hnumber2, hpower1, hpower2, hepsilon, hdecay, Option.bind_eq_bind, Option.bind_some]
  rfl

/-- So a step with a gradient that fits reaches the parameter. -/
theorem number_ofSettings (h : o.IsPlainAdam) (hrate : Setting.IsPlain rate) (hcount : 0 < count) :
    (Reach.ofSettings ℝ o.rule rate count false false).number := by
  obtain ⟨beta1, beta2, epsilon, weightDecay, hrule, ⟨b1, h1⟩, ⟨b2, h2⟩, he, hw⟩ := h.exists_adam
  have hplain1 := Setting.isPlain_of_isDecay h1
  have hplain2 := Setting.isPlain_of_isDecay h2
  simp only [hrule, Reach.ofSettings, Setting.scales_of_isDouble hplain1.isDouble,
    Setting.scales_of_isDouble hplain2.isDouble, Setting.scales_of_isDouble hw.isDouble, hplain1.isDouble,
    hplain2.isDouble, he.isDouble, hrate.isDouble, Setting.hasPower_of_isDecay h1 hcount,
    Setting.hasPower_of_isDecay h2 hcount, Bool.and_self]

theorem areNumeric_of_isPlainAdam (h : o.IsPlainAdam) (hrate : Setting.IsPlain rate) : o.areNumeric rate := by
  obtain ⟨beta1, beta2, epsilon, weightDecay, hrule, ⟨b1, h1⟩, ⟨b2, h2⟩, ⟨⟨e, he⟩, _⟩, ⟨⟨w, hw⟩, _⟩⟩ := h.exists_adam
  obtain ⟨⟨r, hr⟩, _⟩ := hrate
  simp only [areNumeric, hrule, UpdateRule.settings, List.all_cons, List.all_nil, Setting.isNumeric_of_is hr,
    Setting.isNumeric_of_is h1.toIs, Setting.isNumeric_of_is h2.toIs, Setting.isNumeric_of_is he,
    Setting.isNumeric_of_is hw, Bool.and_self]

end OptimizerSettings

end LayerStack
