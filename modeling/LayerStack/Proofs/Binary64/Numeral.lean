import LayerStack.Binary64.Numeral
import Mathlib.Data.List.TakeWhile

/-!
# LayerStack.Proofs.Binary64.Numeral

Numerals of digits alone.

A run of decimal digits with blanks around it is a numeral, and it spells the double nearest to the number that the digits
spell (`read?_digits`).  The digits that a natural number is written with spell this number, so its text is read as the
double nearest to it (`read?_toString`).
-/

namespace LayerStack

/-! ## Digits and blanks -/

namespace Text

variable {c : Char} {cs before after : List Char}

theorem toNat_of_isDigit (hc : c.isDigit) : 48 ≤ c.toNat ∧ c.toNat ≤ 57 := Char.isDigit_iff_toNat.mp hc

/-- No digit is blank. -/
theorem isBlank_of_isDigit (hc : c.isDigit) : isBlank c = false := by
  have hrange := toNat_of_isDigit hc
  rw [isBlank, List.contains_eq_mem, decide_eq_false_iff_not]
  simp only [blanks, List.mem_cons, List.not_mem_nil, or_false]
  omega

/-- A digit is its own value past the zero. -/
theorem decimalValue?_of_isDigit (hc : c.isDigit) : decimalValue? c = some (c.toNat - 48) := by
  have hrange := toNat_of_isDigit hc
  have hzero : decimalZeros.find? (fun start => start ≤ c.toNat && c.toNat < start + 10) = some 48 := by
    rw [decimalZeros, List.find?_cons_of_pos]
    simp only [Bool.and_eq_true, decide_eq_true_eq]
    omega
  rw [decimalValue?, hzero]
  rfl

theorem dropWhile_of_not_blank (hcs : ∀ c ∈ cs, isBlank c = false) (hafter : ∀ c ∈ after, isBlank c) :
    (cs ++ after).dropWhile isBlank = if cs = [] then [] else cs ++ after := by
  cases cs with
  | nil => simpa [List.dropWhile_eq_nil_iff] using hafter
  | cons c cs => simp [hcs c List.mem_cons_self]

/-- What stands between blanks is left when they are stripped. -/
theorem strip_of_blanks (hbefore : ∀ c ∈ before, isBlank c) (hcs : ∀ c ∈ cs, isBlank c = false)
    (hafter : ∀ c ∈ after, isBlank c) : strip (before ++ cs ++ after) = cs := by
  rw [strip, List.append_assoc, List.dropWhile_append_of_pos hbefore, dropWhile_of_not_blank hcs hafter]
  by_cases hnil : cs = []
  · simp [hnil]
  · have hreverse : ∀ c ∈ cs.reverse, isBlank c = false := fun c hc => hcs c (List.mem_reverse.mp hc)
    have hblank : ∀ c ∈ after.reverse, isBlank c := fun c hc => hafter c (List.mem_reverse.mp hc)
    have hend : cs.reverse.dropWhile isBlank = cs.reverse := by
      simpa [hnil] using dropWhile_of_not_blank hreverse (List.forall_mem_nil _)
    rw [if_neg hnil, List.reverse_append, List.dropWhile_append_of_pos hblank, hend, List.reverse_reverse]

end Text

namespace Numeral

variable {c : Char} {cs : List Char}

/-! ## A run of digits -/

theorem latinDigit_of_isDigit (hc : c.isDigit) : latinDigit c = c := by
  have hrange := Text.toNat_of_isDigit hc
  have hvalue : '0'.toNat + (c.toNat - 48) = c.toNat := by
    have hzero : '0'.toNat = 48 := rfl
    omega
  rw [latinDigit, Text.decimalValue?_of_isDigit hc]
  simp only [hvalue, Char.ofNat_toNat]

/-- A character that is no digit begins no run of them. -/
theorem ne_of_isDigit (hc : c.isDigit) {d : Char} (hd : d.isDigit = false) : c ≠ d := by
  rintro rfl
  simp [hc] at hd

/-- Digits without underscores are joined already. -/
theorem joinGroups?_of_digits (h : ∀ c ∈ cs, c.isDigit) : joinGroups? cs = some cs := by
  induction cs with
  | nil => rfl
  | cons c cs ih =>
      obtain ⟨hc, hcs⟩ := List.forall_mem_cons.mp h
      have hunder : c ≠ '_' := ne_of_isDigit hc rfl
      cases cs with
      | nil => simp [joinGroups?]
      | cons d r =>
          have hunder' : d ≠ '_' := ne_of_isDigit (hcs d List.mem_cons_self) rfl
          have hstep : joinGroups? (c :: d :: r) = (joinGroups? (d :: r)).map (c :: ·) := by
            rw [joinGroups?] <;> simp [hunder, hunder']
          rw [hstep, ih hcs]
          rfl

theorem splitSign_of_digits (h : ∀ c ∈ cs, c.isDigit) : splitSign cs = (false, cs) := by
  unfold splitSign
  split
  · exact absurd rfl (ne_of_isDigit (h _ List.mem_cons_self) rfl)
  · exact absurd rfl (ne_of_isDigit (h _ List.mem_cons_self) rfl)
  · rfl

/-- Digits spell no word. -/
theorem ofList_toLower_ne (hne : cs ≠ []) (h : ∀ c ∈ cs, c.isDigit) (word : String)
    (hword : ∀ c ∈ word.toList, c.isDigit = false) : String.ofList (cs.map Char.toLower) ≠ word := by
  rintro rfl
  obtain ⟨c, cs, rfl⟩ := List.exists_cons_of_ne_nil hne
  have hc := h c List.mem_cons_self
  have hlower : c.toLower = c := by
    have hrange := Text.toNat_of_isDigit hc
    refine dif_neg ?_
    rintro ⟨hupper, _⟩
    have hle : 65 ≤ c.toNat := UInt32.le_iff_toNat_le.mp hupper
    omega
  have hfirst := hword c (by simp [hlower])
  simp [hc] at hfirst

theorem digits?_of_digits (hne : cs ≠ []) (h : ∀ c ∈ cs, c.isDigit) (negative : Bool) :
    digits? negative cs = some (.ofDecimal negative (digitsValue cs) 0) := by
  have htake : cs.takeWhile Char.isDigit = cs := List.takeWhile_eq_self_iff.mpr h
  have hdrop : cs.dropWhile Char.isDigit = [] := List.dropWhile_eq_nil_iff.mpr h
  simp [digits?, htake, hdrop, hne, exponent?]

/-- A text is a numeral if digits are left of it when its blanks are stripped. -/
theorem read?_digits {s : String} (hne : cs ≠ []) (h : ∀ c ∈ cs, c.isDigit) (hs : Text.strip s.toList = cs) :
    read? s = some (.ofDecimal false (digitsValue cs) 0) := by
  have hlatin : cs.map latinDigit = cs := by
    conv => rhs; rw [← List.map_id cs]
    exact List.map_congr_left fun c hc => latinDigit_of_isDigit (h c hc)
  have hwords : unsigned? false cs = digits? false cs := by
    have hinf := ofList_toLower_ne hne h "inf" (by simp)
    have hinfinity := ofList_toLower_ne hne h "infinity" (by simp)
    have hnan := ofList_toLower_ne hne h "nan" (by simp)
    simp [unsigned?, hinf, hinfinity, hnan]
  rw [read?, hs, hlatin, joinGroups?_of_digits h]
  simp only [Option.bind_eq_bind, Option.bind_some, splitSign_of_digits h, hwords, digits?_of_digits hne h]

/-! ## The text of a number -/

/-- The digits of a number spell it. -/
theorem digitsValue_toDigits (n : Nat) : digitsValue (Nat.toDigits 10 n) = n :=
  Nat.ofDigitChars_ten_toDigits

/-- Without an exponent a numeral of digits is rounded as the integer it spells. -/
theorem ofDecimal_natural (n : Nat) : Binary64.ofDecimal false n 0 = .ofInt n := by
  have hsign : decide ((n : Int) < 0) = false := decide_eq_false (by omega)
  have hlog : ¬ (0 : Int) + (Nat.log2 n : Int) < -10000 := by omega
  rw [Binary64.ofInt, Binary64.ofFraction, hsign, Int.natAbs_natCast, Binary64.ofDecimal]
  by_cases hn : n = 0
  · rw [if_pos hn, Binary64.Format.round, if_pos hn]
  · rw [if_neg hn, if_neg (by decide), if_neg hlog, if_pos (by decide)]
    simp

variable {n : Nat} {left right : String}

/-- The text of a natural number is digits. -/
theorem isDigit_of_toDigits : ∀ c ∈ Nat.toDigits 10 n, c.isDigit := fun _ hc =>
  Nat.isDigit_of_mem_toDigits (by decide) (by decide) hc

/-- Without the blanks around it the text of a natural number is its digits. -/
theorem strip_toString (hleft : ∀ c ∈ left.toList, Text.isBlank c) (hright : ∀ c ∈ right.toList, Text.isBlank c) :
    Text.strip (left ++ toString n ++ right).toList = Nat.toDigits 10 n := by
  rw [Nat.toString_eq_ofList_toDigits, String.toList_append, String.toList_append, String.toList_ofList]
  exact Text.strip_of_blanks hleft (fun c hc => Text.isBlank_of_isDigit (isDigit_of_toDigits c hc)) hright

/-- The text of a natural number, with blanks around it, is read as the double nearest to the number. -/
theorem read?_toString (hleft : ∀ c ∈ left.toList, Text.isBlank c) (hright : ∀ c ∈ right.toList, Text.isBlank c) :
    read? (left ++ toString n ++ right) = some (.ofInt n) := by
  rw [read?_digits Nat.toDigits_ne_nil isDigit_of_toDigits (strip_toString hleft hright), digitsValue_toDigits,
    ofDecimal_natural]

end Numeral

end LayerStack
