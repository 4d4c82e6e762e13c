import LayerStack.Proofs.Outcome
import LayerStack.Value.Reader
import Mathlib.Data.List.Infix
import Mathlib.Data.List.TakeWhile

/-!
# LayerStack.Proofs.Value.Reader

Which array texts have too many digits.

A reader leaves an end of the text it is given.  `Reads` says so of a result, and that a refusal for digits is borne out
by a run of more than `maxDigits` digits in the text; it is kept when one reader follows another (`Reads.bind`).  The main
statement is `longRun_of_list`: an array text is refused for its digits only if it has such a run.  A list of one integer
with such a run is refused (`list_of_run`).
-/

namespace LayerStack

/-- A text without the blanks at its ends is a part of it. -/
theorem Text.strip_infix (cs : List Char) : strip cs <:+: cs := by
  have hfront : cs.dropWhile isBlank <:+: cs := (List.dropWhile_suffix _).isInfix
  have hback : ((cs.dropWhile isBlank).reverse.dropWhile isBlank).reverse <+: cs.dropWhile isBlank := by
    rw [← List.reverse_suffix, List.reverse_reverse]
    exact List.dropWhile_suffix _
  exact hback.isInfix.trans hfront

namespace Value.Reader

variable {β γ : Type} {cs r : List Char} {x : Except Refusal (β × List Char)}

/-- A text with a run of more digits than are read. -/
def HasLongRun (cs : List Char) : Prop := ∃ run, run <:+: cs ∧ maxDigits < run.length ∧ ∀ c ∈ run, c.isDigit

theorem HasLongRun.mono (h : HasLongRun r) (hr : r <:+: cs) : HasLongRun cs := by
  obtain ⟨run, hrun, hlong, hdigits⟩ := h
  exact ⟨run, hrun.trans hr, hlong, hdigits⟩

/-- A result of reading from the front of a text. -/
structure Reads (cs : List Char) (x : Except Refusal (β × List Char)) : Prop where
  rest : ∀ b r, x = .ok (b, r) → r <:+ cs
  digits : x = .error .digits → HasLongRun cs

namespace Reads

theorem ok {b : β} (h : r <:+ cs) : Reads cs (.ok (b, r)) where
  rest b' r' heq := by
    obtain ⟨-, rfl⟩ := Prod.mk.inj (Except.ok.inj heq)
    exact h
  digits heq := by contradiction

theorem grammar : Reads (β := β) cs (.error .grammar) where
  rest _ _ heq := by contradiction
  digits heq := by simp at heq

theorem mono (h : Reads r x) (hr : r <:+ cs) : Reads cs x where
  rest b r' heq := (h.rest b r' heq).trans hr
  digits heq := (h.digits heq).mono hr.isInfix

/-- One reader after another reads, if the second reads what the first leaves. -/
theorem bind {f : β × List Char → Except Refusal (γ × List Char)} (hx : Reads cs x) (hf : ∀ b r, Reads r (f (b, r))) :
    Reads cs (x >>= f) := by
  cases x with
  | error e => exact ⟨fun _ _ heq => by contradiction, fun heq => hx.digits (by rw [Except.error.inj heq])⟩
  | ok found => exact (hf found.1 found.2).mono (hx.rest found.1 found.2 rfl)

theorem expect {o : Option (β × List Char)} (h : ∀ b r, o = some (b, r) → r <:+ cs) : Reads cs (Reader.expect o) := by
  cases o with
  | none => exact grammar
  | some found => exact ok (h found.1 found.2 rfl)

end Reads

/-! ## Words and strings -/

theorem skip_suffix (cs : List Char) : skip cs <:+ cs := List.dropWhile_suffix _

theorem word?_suffix {word : String} (h : word? word cs = some r) : r <:+ cs := by
  unfold word? at h
  split at h
  · rw [← Option.some.inj h]
    exact List.drop_suffix _ _
  · contradiction

theorem named?_suffix {v : Value} (h : named? cs = some (v, r)) : r <:+ cs := by
  obtain ⟨⟨word, w⟩, _, hword⟩ := List.exists_of_findSome?_eq_some h
  obtain ⟨r', hr', hpair⟩ := Option.map_eq_some_iff.mp hword
  rw [← (Prod.mk.inj hpair).2]
  exact word?_suffix hr'

theorem unit?_suffix {n : Nat} (h : unit? cs = some (n, r)) : r <:+ cs := by
  unfold unit? at h
  split at h
  · next a b c d r' =>
      simp only [Option.bind_eq_bind, Option.bind_eq_some_iff, Option.some.injEq, Prod.mk.injEq] at h
      obtain ⟨_, _, _, _, _, _, _, _, _, rfl⟩ := h
      exact List.suffix_append [a, b, c, d] _
  · contradiction

theorem lowUnit?_suffix {n : Nat} (h : lowUnit? cs = some (n, r)) : r <:+ cs := by
  unfold lowUnit? at h
  split at h
  · next r' =>
      simp only [Option.bind_eq_bind, Option.bind_eq_some_iff] at h
      obtain ⟨⟨low, r''⟩, hunit, h⟩ := h
      split at h
      · rw [← (Prod.mk.inj (Option.some.inj h)).2]
        exact (unit?_suffix hunit).trans (List.suffix_append ['\\', 'u'] _)
      · contradiction
  · contradiction

theorem escapedUnit?_suffix {c : Char} (h : escapedUnit? cs = some (c, r)) : r <:+ cs := by
  simp only [escapedUnit?, Option.bind_eq_bind, Option.bind_eq_some_iff] at h
  obtain ⟨⟨unit, r'⟩, hunit, h⟩ := h
  have hr' := unit?_suffix hunit
  split at h
  · split at h
    · next low r'' hlow =>
        rw [← (Prod.mk.inj (Option.some.inj h)).2]
        exact (lowUnit?_suffix hlow).trans hr'
    · rwa [← (Prod.mk.inj (Option.some.inj h)).2]
  · split at h <;> rwa [← (Prod.mk.inj (Option.some.inj h)).2]

theorem escaped?_suffix {c : Char} (h : escaped? cs = some (c, r)) : r <:+ cs := by
  unfold escaped? at h
  split at h
  case h_9 => exact (escapedUnit?_suffix h).trans (List.suffix_cons _ _)
  case h_10 => contradiction
  all_goals
    rw [← (Prod.mk.inj (Option.some.inj h)).2]
    exact List.suffix_cons _ _

theorem stringTail?_suffix {fuel : Nat} {acc : List Char} {s : String} (h : stringTail? fuel cs acc = some (s, r)) :
    r <:+ cs := by
  induction fuel, cs, acc using stringTail?.induct with
  | case1 cs acc => contradiction
  | case2 fuel acc => contradiction
  | case3 fuel r' acc =>
      rw [← (Prod.mk.inj (Option.some.inj h)).2]
      exact List.suffix_cons _ _
  | case4 fuel r' acc ih =>
      simp only [stringTail?, Option.bind_eq_bind, Option.bind_eq_some_iff] at h
      obtain ⟨⟨c, r''⟩, hescaped, h⟩ := h
      exact ((ih c r'' h).trans (escaped?_suffix hescaped)).trans (List.suffix_cons _ _)
  | case5 fuel c r' acc hquote hescape hcontrol => simp [stringTail?, hcontrol] at h
  | case6 fuel c r' acc hquote hescape hcontrol ih =>
      rw [stringTail?, if_neg hcontrol] at h
      · exact (ih h).trans (List.suffix_cons _ _)
      · exact hquote
      · exact hescape

/-! ## Numbers -/

/-- The integer digits of a number are a run of digits, and what follows is left. -/
theorem whole?_append {run : List Char} (h : whole? cs = some (run, r)) : run ++ r = cs ∧ ∀ c ∈ run, c.isDigit := by
  unfold whole? at h
  split at h
  · obtain ⟨rfl, rfl⟩ := Prod.mk.inj (Option.some.inj h)
    exact ⟨rfl, by simp⟩
  · split at h
    · obtain ⟨rfl, rfl⟩ := Prod.mk.inj (Option.some.inj h)
      exact ⟨List.takeWhile_append_dropWhile, fun c hc => List.mem_takeWhile_imp hc⟩
    · contradiction
  · contradiction

theorem part_suffix (cs : List Char) : (part cs).2 <:+ cs := by
  unfold part
  split
  · split
    · exact List.suffix_refl _
    · exact (List.dropWhile_suffix _).trans (List.suffix_cons _ _)
  · exact List.suffix_refl _

theorem splitSign_suffix (cs : List Char) : (Numeral.splitSign cs).2 <:+ cs := by
  unfold Numeral.splitSign
  split
  · exact List.suffix_cons _ _
  · exact List.suffix_cons _ _
  · exact List.suffix_refl _

theorem power?_suffix (cs : List Char) : (power? cs).2 <:+ cs := by
  unfold power?
  split
  · next c r =>
      simp only
      split
      · exact ((List.dropWhile_suffix _).trans (splitSign_suffix r)).trans (List.suffix_cons _ _)
      · exact List.suffix_refl _
  · exact List.suffix_refl _

/-- A number is read; it is refused for its digits where these are a run of more than are read. -/
theorem reads_unsigned (negative : Bool) (cs : List Char) : Reads cs (unsigned negative cs) := by
  unfold unsigned
  cases hwhole : whole? cs with
  | none => exact Reads.grammar
  | some found =>
      obtain ⟨run, r⟩ := found
      obtain ⟨rfl, hdigits⟩ := whole?_append hwhole
      have hrest : (power? (part r).2).2 <:+ run ++ r :=
        ((power?_suffix _).trans (part_suffix _)).trans (List.suffix_append _ _)
      simp only [Reader.expect, bind, Except.bind, pure, Except.pure]
      split
      · split
        · next hlong =>
            have hinfix : run <:+: run ++ r := (List.prefix_append run r).isInfix
            exact ⟨fun _ _ heq => by contradiction, fun _ => ⟨run, hinfix, hlong, hdigits⟩⟩
        · exact Reads.ok hrest
      · exact Reads.ok hrest

theorem reads_number (cs : List Char) : Reads cs (number cs) := by
  unfold number
  split
  · exact (reads_unsigned true _).mono (List.suffix_cons _ _)
  · exact reads_unsigned false _

/-! ## Values -/

theorem reads_string (fuel : Nat) (cs : List Char) : Reads cs (Reader.expect (stringTail? fuel cs [])) :=
  .expect fun _ _ h => stringTail?_suffix h

/-- What a skipped text begins with is left behind it. -/
theorem suffix_of_skip {c : Char} (h : skip cs = c :: r) : r <:+ cs :=
  (List.suffix_cons c r).trans (h ▸ skip_suffix cs)

/-- Values, entries and items are read. -/
theorem reads_value :
    (∀ fuel cs, Reads cs (value fuel cs)) ∧ (∀ fuel cs acc, Reads cs (entries fuel cs acc)) ∧
      ∀ fuel cs acc, Reads cs (items fuel cs acc) := by
  refine value.mutual_induct (fun fuel cs => Reads cs (value fuel cs)) (fun fuel cs acc => Reads cs (entries fuel cs acc))
    (fun fuel cs acc => Reads cs (items fuel cs acc)) ?spent ?text ?emptyList ?list ?emptyMapping ?mapping ?word ?number
    ?spentEntries ?entry ?noEntry ?spentItems ?item
  case spent => exact fun _ => .grammar
  case spentEntries => exact fun _ _ => .grammar
  case spentItems => exact fun _ _ => .grammar
  case text =>
    intro fuel r
    rw [value]
    refine Reads.mono ((reads_string fuel r).bind fun s r' => ?_) (List.suffix_cons _ _)
    exact .ok (List.suffix_refl r')
  case emptyList =>
    intro fuel r r' h
    rw [value, h]
    exact .ok ((suffix_of_skip h).trans (List.suffix_cons _ _))
  case list =>
    intro fuel r h hitems
    rw [value.eq_3]
    split
    · next r' h' => exact absurd h' (h r')
    · exact hitems.mono ((skip_suffix r).trans (List.suffix_cons _ _))
  case emptyMapping =>
    intro fuel r r' h
    rw [value, h]
    exact .ok ((suffix_of_skip h).trans (List.suffix_cons _ _))
  case mapping =>
    intro fuel r h hentries
    rw [value.eq_4]
    split
    · next r' h' => exact absurd h' (h r')
    · exact hentries.mono ((skip_suffix r).trans (List.suffix_cons _ _))
  case word =>
    intro fuel cs htext hlist hmapping found h
    rw [value.eq_5 _ _ htext hlist hmapping, h]
    exact .ok (named?_suffix h)
  case number =>
    intro fuel cs htext hlist hmapping h
    rw [value.eq_5 _ _ htext hlist hmapping, h]
    exact reads_number cs
  case entry =>
    intro fuel r acc hvalue hentries
    rw [entries]
    refine Reads.mono ((reads_string fuel r).bind fun key r => ?_) (List.suffix_cons _ _)
    simp only
    split
    · next r' hcolon =>
      refine Reads.mono ((hvalue r').bind fun v r => ?_) ((skip_suffix r').trans (suffix_of_skip hcolon))
      simp only
      split
      · next r' hcomma => exact (hentries key v r').mono ((skip_suffix r').trans (suffix_of_skip hcomma))
      · next r' hclosing => exact .ok (suffix_of_skip hclosing)
      · exact .grammar
    · exact .grammar
  case noEntry =>
    intro fuel cs acc h
    rw [entries.eq_3 _ _ _ h]
    exact .grammar
  case item =>
    intro fuel cs acc hvalue hitems
    rw [items]
    refine hvalue.bind fun v r => ?_
    simp only
    split
    · next r' hcomma => exact (hitems v r').mono ((skip_suffix r').trans (suffix_of_skip hcomma))
    · next r' hclosing => exact .ok (suffix_of_skip hclosing)
    · exact .grammar

/-- An array text that is refused for its digits has a run of more than are read. -/
theorem longRun_of_list (h : list cs = .error .digits) : HasLongRun cs := by
  have hvalue := (reads_value.1 (2 * cs.length + 2) (skip cs)).mono (skip_suffix cs)
  refine hvalue.digits ?_
  simp only [list, document, bind_eq_error] at h
  rcases h with (h | ⟨found, _, h⟩) | ⟨v, _, h⟩
  · exact h
  · split at h
    · exact absurd h pure_ne_error
    · cases h
  · split at h
    · exact absurd h pure_ne_error
    · cases h

/-! ## Runs that are too long -/

theorem word?_of_digit {c w : Char} {word : String} {ws cs : List Char} (hc : c.isDigit) (hword : word.toList = w :: ws)
    (hw : w.isDigit = false) : word? word (c :: cs) = none := by
  have hne : w ≠ c := by
    rintro rfl
    rw [hc] at hw
    contradiction
  rw [word?, hword, List.isPrefixOf_cons_cons, beq_eq_false_iff_ne.mpr hne]
  rfl

/-- No word for a value begins with a digit. -/
theorem named?_of_digit {c : Char} {cs : List Char} (hc : c.isDigit) : named? (c :: cs) = none := by
  rw [named?, List.findSome?_eq_none_iff]
  intro (word, w) hmem
  rw [Option.map_eq_none_iff]
  simp only [List.mem_cons, Prod.mk.injEq, List.not_mem_nil, or_false] at hmem
  rcases hmem with ⟨rfl, _⟩ | ⟨rfl, _⟩ | ⟨rfl, _⟩ | ⟨rfl, _⟩ | ⟨rfl, _⟩ | ⟨rfl, _⟩ <;>
    exact word?_of_digit hc rfl rfl

theorem value_of_digit {c : Char} {cs : List Char} (hc : c.isDigit) (fuel : Nat) :
    value (fuel + 1) (c :: cs) = unsigned false (c :: cs) := by
  have hne (d : Char) (hd : d.isDigit = false) : c ≠ d := by
    rintro rfl
    rw [hc] at hd
    contradiction
  rw [value, named?_of_digit hc]
  · show number (c :: cs) = _
    unfold number
    split
    · next heq => exact absurd (List.cons.inj heq).1 (hne '-' rfl)
    · rfl
  · rintro r ⟨rfl, _⟩
    exact hne '"' rfl rfl
  · rintro r ⟨rfl, _⟩
    exact hne '[' rfl rfl
  · rintro r ⟨rfl, _⟩
    exact hne '\x7b' rfl rfl

/-- A run of more digits than are read is refused for them. -/
theorem unsigned_of_run {c : Char} {cs : List Char} (hdigits : ∀ d ∈ c :: cs, d.isDigit) (hzero : c ≠ '0')
    (hlong : maxDigits < (c :: cs).length) (negative : Bool) :
    unsigned negative (c :: cs ++ [']']) = .error .digits := by
  have hwhole : whole? (c :: cs ++ [']']) = some (c :: cs, [']']) := by
    have htake : ((c :: cs) ++ [']']).takeWhile Char.isDigit = c :: cs := by
      rw [List.takeWhile_append_of_pos hdigits]
      simp [List.takeWhile]
    have hdrop : ((c :: cs) ++ [']']).dropWhile Char.isDigit = [']'] := by
      rw [List.dropWhile_append_of_pos hdigits]
      simp [List.dropWhile]
    unfold whole?
    split
    · next heq => exact absurd (List.cons.inj heq).1 hzero
    · next c' r' _ heq =>
        obtain ⟨rfl, _⟩ := List.cons.inj heq
        rw [if_pos (hdigits _ List.mem_cons_self), htake, hdrop]
    · next heq => contradiction
  rw [unsigned, hwhole]
  show (if maxDigits < (c :: cs).length then _ else _) = _
  rw [if_pos hlong]

theorem skip_of_digit {c : Char} (hc : c.isDigit) (cs : List Char) : skip (c :: cs) = c :: cs := by
  have hspace : isSpace c = false := by
    rw [Bool.eq_false_iff]
    intro h
    simp only [isSpace, Bool.or_eq_true, decide_eq_true_eq] at h
    rcases h with ((rfl | rfl) | rfl) | rfl <;> contradiction
  rw [skip, List.dropWhile_cons_of_neg (by simp [hspace])]

/-- A list of one integer with more digits than are read is refused for them. -/
theorem list_of_run {c : Char} {cs : List Char} (hdigits : ∀ d ∈ c :: cs, d.isDigit) (hzero : c ≠ '0')
    (hlong : maxDigits < (c :: cs).length) : list ('[' :: (c :: cs ++ [']'])) = .error .digits := by
  have hc : c.isDigit := hdigits c List.mem_cons_self
  have hskip : skip (c :: cs ++ [']']) = c :: cs ++ [']'] := skip_of_digit hc _
  have hitems (fuel : Nat) : items (fuel + 2) (c :: cs ++ [']']) [] = .error .digits := by
    rw [items, List.cons_append, value_of_digit hc, ← List.cons_append, unsigned_of_run hdigits hzero hlong]
    rfl
  have hvalue (fuel : Nat) : value (fuel + 3) ('[' :: (c :: cs ++ [']'])) = .error .digits := by
    rw [value, hskip]
    split
    · next heq =>
        obtain rfl := (List.cons.inj heq).1
        contradiction
    · exact hitems fuel
  have hfuel : 2 * ('[' :: (c :: cs ++ [']'])).length + 2 = (2 * (c :: cs ++ [']']).length + 1) + 3 := by
    rw [List.length_cons, Nat.mul_add]
  have hopen : skip ('[' :: (c :: cs ++ [']'])) = '[' :: (c :: cs ++ [']']) := rfl
  rw [list, document, hopen, hfuel, hvalue]
  rfl

end Value.Reader

end LayerStack
