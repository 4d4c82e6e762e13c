import LayerStack.Proofs.Number
import LayerStack.Proofs.Parameter.Form

/-!
# LayerStack.Proofs.Parameter.Count

Which values a rule cannot decide.

A rule is left undecided by a number too large and by nothing else (`Rule.holds_error`).  Of coerced values, that is an
integer past the doubles where a positive integer is asked for: the rules that count positive integers stumble over it
(`Value.Stumbles`), and the other rules of the palette decide every value (`Rule.holds_of_decides`).
-/

namespace LayerStack

/-! ## Integers too large -/

namespace Value

/-- An integer past the doubles. -/
def Overflows (v : Value) : Prop := ∃ n : Int, v = .int n ∧ Binary64.overflow ≤ n.natAbs

/-- A positive integer within the doubles. -/
def IsCount (v : Value) : Prop := ∃ n : Int, v = .int n ∧ 1 ≤ n ∧ n.natAbs < Binary64.overflow

theorem IsCount.not_overflows {v : Value} (h : v.IsCount) : ¬ v.Overflows := by
  obtain ⟨n, rfl, _, hn⟩ := h
  rintro ⟨m, hm, hle⟩
  obtain rfl := Value.int.inj hm
  omega

/-- Looking for the first value that is no positive integer comes upon one past the doubles: all before it are positive
integers within them. -/
inductive Stumbles : List Value → Prop
  | here {v : Value} {vs : List Value} (h : v.Overflows) : Stumbles (v :: vs)
  | later {v : Value} {vs : List Value} (hv : v.IsCount) (h : Stumbles vs) : Stumbles (v :: vs)

theorem not_stumbles_nil : ¬ Stumbles [] := nofun

theorem stumbles_cons {v : Value} {vs : List Value} : Stumbles (v :: vs) ↔ v.Overflows ∨ v.IsCount ∧ Stumbles vs := by
  constructor
  · intro h
    cases h with
    | here h => exact .inl h
    | later hv h => exact .inr ⟨hv, h⟩
  · rintro (h | ⟨hv, h⟩)
    · exact .here h
    · exact .later hv h

theorem stumbles_singleton {v : Value} : Stumbles [v] ↔ v.Overflows := by
  rw [stumbles_cons]
  simp [not_stumbles_nil]

end Value

namespace Rule

variable {v w : Value} {f : AnalysisFault}

theorem isPositiveInteger_error (h : isPositiveInteger v = .error f) : f = .tooLarge := by
  unfold isPositiveInteger at h
  split at h
  · contradiction
  · next x _ =>
      simp only [bind_eq_error, pure_ne_error, and_false, exists_false, or_false] at h
      unfold isWhole at h
      split at h
      · split at h
        · contradiction
        · exact (Except.error.inj h).symm
      · contradiction
      · contradiction

theorem allPositiveIntegers_error {vs : List Value} (h : allPositiveIntegers vs = .error f) : f = .tooLarge := by
  induction vs with
  | nil => contradiction
  | cons v vs ih =>
      simp only [allPositiveIntegers, bind_eq_error] at h
      rcases h with h | ⟨first, _, h⟩
      · exact isPositiveInteger_error h
      · cases first with
        | false => exact absurd h pure_ne_error
        | true => exact ih h

theorem isBetween_error {least greatest : Value} (h : isBetween least greatest v = .error f) : f = .tooLarge := by
  have atMost {a b : Value} (hab : isAtMost a b = .error f) : f = .tooLarge := by
    unfold isAtMost at hab
    split at hab
    · exact (Except.error.inj hab).symm
    · contradiction
  simp only [isBetween, bind_eq_error] at h
  rcases h with h | ⟨low, _, h⟩
  · exact atMost h
  · cases low with
    | false => exact absurd h pure_ne_error
    | true => exact atMost h

theorem isAmong_error {allowed : List Value} (h : isAmong v allowed = .error f) : f = .tooLarge := by
  induction allowed with
  | nil => contradiction
  | cons a rest ih =>
      unfold isAmong at h
      split at h
      · contradiction
      · exact ih h
      · exact (Except.error.inj h).symm

/-- A rule that cannot decide a value meets a number too large. -/
theorem holds_error {rule : Rule} (h : rule.holds v = .error f) : f = .tooLarge := by
  cases rule with
  | positiveInteger => exact isPositiveInteger_error h
  | positiveNumber | probability | probabilityInclusive | boolean => contradiction
  | range least greatest =>
      simp only [holds] at h
      split at h
      · exact isBetween_error h
      · contradiction
  | oneOf allowed message => exact isAmong_error h
  | positiveIntegers =>
      simp only [holds] at h
      split at h
      · exact allPositiveIntegers_error h
      · contradiction
  | rank least greatest =>
      simp only [holds] at h
      split at h
      · exact isBetween_error h
      · contradiction
  | size2d =>
      simp only [holds] at h
      split at h
      · split at h
        · exact allPositiveIntegers_error h
        · contradiction
      · exact isPositiveInteger_error h

theorem broken_error {rules : List Rule} (h : broken rules v = .error f) : f = .tooLarge := by
  induction rules with
  | nil => contradiction
  | cons rule rules ih =>
      simp only [broken, bind_eq_error, pure_ne_error, and_false, exists_false, or_false] at h
      rcases h with h | ⟨_, _, h⟩
      · exact holds_error h
      · exact ih h

/-- Rules are left undecided where one of them is. -/
theorem broken_eq_error {rules : List Rule} :
    broken rules v = .error f ↔ f = .tooLarge ∧ ∃ rule ∈ rules, rule.holds v = .error .tooLarge := by
  constructor
  · intro h
    obtain rfl := broken_error h
    refine ⟨rfl, ?_⟩
    induction rules with
    | nil => contradiction
    | cons rule rules ih =>
        simp only [broken, bind_eq_error, pure_ne_error, and_false, exists_false, or_false] at h
        rcases h with h | ⟨_, _, h⟩
        · exact ⟨rule, List.mem_cons_self, h⟩
        · obtain ⟨rule', hmem, hrule'⟩ := ih h
          exact ⟨rule', List.mem_cons_of_mem _ hmem, hrule'⟩
  · rintro ⟨rfl, rule, hmem, hrule⟩
    induction rules with
    | nil => contradiction
    | cons head rules ih =>
        rw [broken]
        cases hhead : head.holds v with
        | error g => rw [holds_error hhead]; rfl
        | ok obeyed =>
            have hlater : rule ∈ rules := by
              rcases List.mem_cons.mp hmem with rfl | hlater
              · rw [hrule] at hhead
                contradiction
              · exact hlater
            rw [ih hlater]
            rfl

/-! ### Counting -/

/-- An integer is left undecided past the doubles. -/
theorem isPositiveInteger_int (n : Int) :
    isPositiveInteger (.int n) = if n.natAbs < Binary64.overflow then .ok (decide (1 ≤ n)) else .error .tooLarge := by
  have hdouble : (Number.int n).hasDouble ↔ n.natAbs < Binary64.overflow := Binary64.isSome_ofInt? n
  have hpositive : Number.lt (.int 0) (.int n) = decide (1 ≤ n) := by
    rw [Bool.eq_iff_iff, Number.lt, Number.compare?, beq_iff_eq, Option.some.injEq, Int.compare_eq_lt, decide_eq_true_eq]
    omega
  simp only [isPositiveInteger, Value.number?, isWhole, hdouble, hpositive]
  split
  · simp [bind, Except.bind, pure, Except.pure]
  · rfl

/-- A normalized value is an integer, a double that is none, or no number. -/
theorem normalize_cases (w : Value) :
    (∃ n, Kind.normalizeUnlessBoolean w = .int n) ∨
      (∃ y, Kind.normalizeUnlessBoolean w = .float y ∧ y.toInt? = none) ∨
      (Kind.normalizeUnlessBoolean w).number? = none := by
  have double (x : Binary64) : (∃ n, Kind.ofBinary64 x = .int n) ∨ ∃ y, Kind.ofBinary64 x = .float y ∧ y.toInt? = none := by
    unfold Kind.ofBinary64
    cases hx : x.toInt? with
    | some n => exact .inl ⟨n, rfl⟩
    | none => exact .inr ⟨x, rfl, hx⟩
  cases w with
  | int n => exact .inl ⟨n, rfl⟩
  | float x => exact (double x).imp_right .inl
  | scalar s =>
      cases s with
      | int64 n | int32 n | uint64 n => exact .inl ⟨n, rfl⟩
      | float64 x | float32 x => exact (double x).imp_right .inl
      | bool b => exact .inr (.inr rfl)
  | absent | bool b | text s | list items | row items | mapping entries | array items => exact .inr (.inr rfl)

/-- A normalized value is a positive integer within the doubles, an integer past them, or neither, and the rule tells
which. -/
theorem isPositiveInteger_cases (hv : v = Kind.normalizeUnlessBoolean w) :
    v.IsCount ∧ isPositiveInteger v = .ok true ∨
      v.Overflows ∧ isPositiveInteger v = .error .tooLarge ∨
      (¬ v.IsCount ∧ ¬ v.Overflows) ∧ isPositiveInteger v = .ok false := by
  have neither (h : ∀ n, v ≠ .int n) : ¬ v.IsCount ∧ ¬ v.Overflows :=
    ⟨fun ⟨n, hn, _⟩ => h n hn, fun ⟨n, hn, _⟩ => h n hn⟩
  rcases normalize_cases w with ⟨n, hn⟩ | ⟨y, hy, hwhole⟩ | hnone
  · obtain rfl := hv.trans hn
    rw [isPositiveInteger_int]
    by_cases hlarge : n.natAbs < Binary64.overflow
    · rw [if_pos hlarge]
      by_cases hpos : 1 ≤ n
      · exact .inl ⟨⟨n, rfl, hpos, hlarge⟩, by simp [hpos]⟩
      · refine .inr (.inr ⟨⟨?_, ?_⟩, by simp [hpos]⟩)
        · rintro ⟨m, hm, hle, _⟩
          exact hpos (Value.int.inj hm ▸ hle)
        · rintro ⟨m, hm, hle⟩
          obtain rfl := Value.int.inj hm
          omega
    · exact .inr (.inl ⟨⟨n, rfl, Nat.not_lt.mp hlarge⟩, if_neg hlarge⟩)
  · refine .inr (.inr ⟨neither (by simp [hv, hy]), ?_⟩)
    rw [hv, hy]
    simp [isPositiveInteger, Value.number?, isWhole, Binary64.isWhole, hwhole, bind, Except.bind, pure, Except.pure]
  · rw [← hv] at hnone
    refine .inr (.inr ⟨neither ?_, ?_⟩)
    · rintro n rfl
      contradiction
    · rw [isPositiveInteger, hnone]

/-- So it is left undecided exactly past the doubles. -/
theorem isPositiveInteger_eq_error (hv : v = Kind.normalizeUnlessBoolean w) :
    isPositiveInteger v = .error .tooLarge ↔ v.Overflows := by
  rcases isPositiveInteger_cases hv with ⟨hcount, h⟩ | ⟨hover, h⟩ | ⟨⟨_, hover⟩, h⟩
  · simp [h, hcount.not_overflows]
  · simp [h, hover]
  · simp [h, hover]

/-- And of normalized items exactly where the search for the first that is no positive integer stumbles. -/
theorem allPositiveIntegers_eq_error (ws : List Value) :
    allPositiveIntegers (ws.map Kind.normalizeUnlessBoolean) = .error .tooLarge ↔
      Value.Stumbles (ws.map Kind.normalizeUnlessBoolean) := by
  induction ws with
  | nil => simp [allPositiveIntegers, Value.not_stumbles_nil]
  | cons w ws ih =>
      rw [List.map_cons, allPositiveIntegers, Value.stumbles_cons]
      rcases isPositiveInteger_cases (v := Kind.normalizeUnlessBoolean w) rfl with
        ⟨hcount, h⟩ | ⟨hover, h⟩ | ⟨⟨hcount, hover⟩, h⟩
      · simpa [h, hcount, hcount.not_overflows, bind, Except.bind] using ih
      · simp [h, hover, bind, Except.bind]
      · simp [h, hcount, hover, bind, Except.bind, pure, Except.pure]

/-! ### Rules that always decide -/

/-- Does a rule decide every value?  All do that count nothing, if bounds have doubles and choices are texts. -/
def Decides : Rule → Prop
  | .positiveNumber | .probability | .probabilityInclusive | .boolean => True
  | .range least greatest => bounds least ∧ bounds greatest
  | .rank least greatest => (∃ n, least = .int n) ∧ ∃ n, greatest = .int n
  | .oneOf allowed _ => ∀ a ∈ allowed, ∃ s, a = .text s
  | .positiveInteger | .positiveIntegers | .size2d => False
where
  bounds (b : Value) : Prop := ∃ x, LayerConfig.number? b = some x ∧ x.hasDouble

/-- A number can be compared with a bound that has a double, on either side. -/
theorem overruns_bound {b : Value} (hb : Decides.bounds b) (hv : v.number?.isSome) :
    Value.overruns b v = false ∧ Value.overruns v b = false := by
  obtain ⟨x, hx, hdouble⟩ := hb
  have hplain (s : MachineScalar) : b.unboxed ≠ .scalar s := by
    unfold LayerConfig.number? at hx
    split at hx <;> simp_all [Value.unboxed]
  have hquantity : b.quantity?.all Number.hasDouble = true := by
    unfold LayerConfig.number? at hx
    split at hx <;> simp_all [Value.quantity?, Value.unboxed, Value.number?]
  have hbound : Value.overruns.past b v = false := by
    unfold Value.overruns.past
    split <;> simp_all
  have hnumber : Value.overruns.past v b = false := by
    cases v with
    | scalar s => cases s <;> simp_all [Value.overruns.past, Value.unboxed, Value.number?]
    | int n | float y => rfl
    | absent | bool b | text s | list items | row items | mapping entries | array items => contradiction
  simp [Value.overruns, hbound, hnumber]

theorem isAtMost_of_not_overruns {a b : Value} (h : Value.overruns a b = false) : isAtMost a b = .ok (Value.le a b) := by
  rw [isAtMost, h]
  rfl

theorem isBetween_of_not_overruns {least greatest : Value} (hleast : Value.overruns least v = false)
    (hgreatest : Value.overruns v greatest = false) : ∃ obeyed, isBetween least greatest v = .ok obeyed := by
  rw [isBetween, isAtMost_of_not_overruns hleast, isAtMost_of_not_overruns hgreatest]
  cases Value.le least v with
  | false => exact ⟨false, rfl⟩
  | true => exact ⟨_, rfl⟩

/-- A text can be compared with every value. -/
theorem exists_same?_text (s : String) (v : Value) : ∃ same, (Value.text s).same? v = some same := by
  have hpast : Value.overruns.past v (.text s) = false := by
    unfold Value.overruns.past
    split
    · rfl
    · rfl
    · contradiction
    · rfl
  have hover : Value.overruns (.text s) v = false := by
    rw [Value.overruns, hpast]
    rfl
  unfold Value.same?
  split
  · exact ⟨_, rfl⟩
  · exact ⟨_, rfl⟩
  · rw [Value.samePlain?, hover]
    exact ⟨_, rfl⟩

theorem isAmong_of_texts {allowed : List Value} (h : ∀ a ∈ allowed, ∃ s, a = .text s) :
    ∃ obeyed, isAmong v allowed = .ok obeyed := by
  induction allowed with
  | nil => exact ⟨_, rfl⟩
  | cons a rest ih =>
      obtain ⟨htext, hrest⟩ := List.forall_mem_cons.mp h
      obtain ⟨s, rfl⟩ := htext
      obtain ⟨same, hsame⟩ := exists_same?_text s v
      rw [isAmong, hsame]
      cases same with
      | true => exact ⟨true, rfl⟩
      | false => exact ih hrest

theorem holds_of_decides {rule : Rule} (h : rule.Decides) (v : Value) : ∃ obeyed, rule.holds v = .ok obeyed := by
  cases rule with
  | positiveNumber | probability | probabilityInclusive | boolean => exact ⟨_, rfl⟩
  | positiveInteger | positiveIntegers | size2d => exact h.elim
  | range least greatest =>
      rw [holds]
      split
      · next hnumber => exact isBetween_of_not_overruns (overruns_bound h.1 hnumber).1 (overruns_bound h.2 hnumber).2
      · exact ⟨false, rfl⟩
  | rank least greatest =>
      obtain ⟨⟨a, rfl⟩, b, rfl⟩ := h
      simp only [holds]
      split
      · exact isBetween_of_not_overruns rfl rfl
      · exact ⟨false, rfl⟩
  | oneOf allowed message => exact isAmong_of_texts h

end Rule

end LayerStack
