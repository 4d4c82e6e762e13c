import LayerStack.Proofs.Outcome

/-!
# LayerStack.Proofs.Parameter.Coerce

Coercion comes to rest after one step.

What coercion reads is there and is no text (`Value.isRead`), and every later step keeps it so: numbers are made plain and
whole, rows are made lists, items are normalized one by one.  Each of these steps leaves alone what it has made itself, so a
coerced value is coerced to itself (`Kind.coerce_of_coerce`), whether its rules would let it pass or not.
-/

namespace LayerStack

/-! ## Values read -/

namespace Value

/-- Is a value there, and no text?  Of such a one there is nothing left to read. -/
def isRead : Value → Bool
  | .absent | .text _ => false
  | _ => true

variable {v w : Value}

theorem isMissing_of_isRead (h : v.isRead) : v.isMissing = false := by
  cases v with
  | absent | text s => contradiction
  | bool b | int n | float x | list items | row items | mapping entries | scalar s | array items => rfl

theorem ne_text_of_isRead (h : v.isRead) (s : String) : v ≠ .text s := by
  rintro rfl
  contradiction

/-- What is there and no text is read as it is. -/
theorem isRead_of_not_text (hpresent : v.isMissing = false) (htext : ∀ s, v ≠ .text s) : v.isRead := by
  cases v with
  | absent => contradiction
  | text s => exact absurd rfl (htext s)
  | bool b | int n | float x | list items | row items | mapping entries | scalar s | array items => rfl

end Value

namespace Kind

variable {kind : Kind} {raw v w : Value}

theorem isRead_of_readNumber {s : String} (h : readNumber s = .ok v) : v.isRead := by
  unfold readNumber at h
  split at h
  · rw [← Except.ok.inj h]
    rfl
  · contradiction

theorem isRead_of_readSize {s : String} (h : readSize kind s = .ok v) : v.isRead := by
  simp only [readSize] at h
  split at h
  · split at h
    · rw [← Except.ok.inj h]
      rfl
    · contradiction
    · contradiction
  · split at h
    · exact isRead_of_readNumber h
    · contradiction

/-! ## Steps that leave alone what they made -/

theorem isRead_ofBinary64 (x : Binary64) : (ofBinary64 x).isRead := by
  unfold ofBinary64
  split <;> rfl

/-- A double that became no integer is none. -/
theorem normalizeUnlessBoolean_ofBinary64 (x : Binary64) : normalizeUnlessBoolean (ofBinary64 x) = ofBinary64 x := by
  cases hx : x.toInt? with
  | some n =>
      rw [ofBinary64, hx]
      rfl
  | none =>
      have hdouble : ofBinary64 x = .float x := by rw [ofBinary64, hx]
      rw [hdouble]
      exact hdouble

/-- Being plain is being plain already. -/
theorem plain_plain (v : Value) : plain (plain v) = plain v := by
  cases v with
  | scalar s => cases s <;> rfl
  | absent | bool b | int n | float x | text s | list items | row items | mapping entries | array items => rfl

theorem isRead_plain (h : v.isRead) : (plain v).isRead := by
  cases v with
  | absent | text s => contradiction
  | scalar s => cases s <;> rfl
  | bool b | int n | float x | list items | row items | mapping entries | array items => rfl

theorem normalizeUnlessBoolean_idem (v : Value) :
    normalizeUnlessBoolean (normalizeUnlessBoolean v) = normalizeUnlessBoolean v := by
  cases v with
  | float x => exact normalizeUnlessBoolean_ofBinary64 x
  | scalar s =>
      cases s with
      | float64 x | float32 x => exact normalizeUnlessBoolean_ofBinary64 x
      | int64 n | int32 n | uint64 n | bool b => rfl
  | absent | bool b | int n | text s | list items | row items | mapping entries | array items => rfl

theorem isRead_normalizeUnlessBoolean (h : v.isRead) : (normalizeUnlessBoolean v).isRead := by
  cases v with
  | absent | text s => contradiction
  | float x => exact isRead_ofBinary64 x
  | scalar s =>
      cases s with
      | float64 x | float32 x => exact isRead_ofBinary64 x
      | int64 n | int32 n | uint64 n | bool b => rfl
  | bool b | int n | list items | row items | mapping entries | array items => rfl

/-- A single value is normalized to a single value. -/
theorem normalizeUnlessBoolean_ne_list (hv : ∀ items, v ≠ .list items) (items : List Value) :
    normalizeUnlessBoolean v ≠ .list items := by
  have double (x : Binary64) : ofBinary64 x ≠ .list items := by
    unfold ofBinary64
    split <;> nofun
  cases v with
  | list items => exact absurd rfl (hv items)
  | float x => exact double x
  | scalar s =>
      cases s with
      | float64 x | float32 x => exact double x
      | int64 n | int32 n | uint64 n | bool b => nofun
  | absent | bool b | int n | text s | row items | mapping entries | array items => nofun

/-- A list is normalized item by item, every other value by itself. -/
theorem normalizeItems_of_ne_list (hv : ∀ items, v ≠ .list items) : normalizeItems v = normalizeUnlessBoolean v := by
  cases v with
  | list items => exact absurd rfl (hv items)
  | absent | bool b | int n | float x | text s | row items | mapping entries | scalar s | array items => rfl

theorem normalizeItems_idem (v : Value) : normalizeItems (normalizeItems v) = normalizeItems v := by
  by_cases hlist : ∃ items, v = .list items
  · obtain ⟨items, rfl⟩ := hlist
    have hitems : normalizeUnlessBoolean ∘ normalizeUnlessBoolean = normalizeUnlessBoolean :=
      funext normalizeUnlessBoolean_idem
    simp only [normalizeItems, List.map_map, hitems]
  · have hsingle (items : List Value) : v ≠ .list items := fun h => hlist ⟨items, h⟩
    rw [normalizeItems_of_ne_list hsingle, normalizeItems_of_ne_list (normalizeUnlessBoolean_ne_list hsingle),
      normalizeUnlessBoolean_idem]

theorem isRead_normalizeItems (h : v.isRead) : (normalizeItems v).isRead := by
  by_cases hlist : ∃ items, v = .list items
  · obtain ⟨items, rfl⟩ := hlist
    rfl
  · rw [normalizeItems_of_ne_list fun items hitems => hlist ⟨items, hitems⟩]
    exact isRead_normalizeUnlessBoolean h

/-- Listing makes a list, or leaves a value that has neither rows nor axes. -/
theorem listed_eq_ok (h : listed v = .ok w) :
    (∃ items, w = .list items) ∨ w = v ∧ ∀ items, v ≠ .row items ∧ v ≠ .array items := by
  cases v with
  | row items | array items =>
      rw [listed] at h
      split at h
      · exact .inl ⟨_, (Except.ok.inj h).symm⟩
      · contradiction
  | absent | bool b | int n | float x | text s | list items | mapping entries | scalar s =>
      exact .inr ⟨(Except.ok.inj h).symm, fun _ => ⟨nofun, nofun⟩⟩

theorem isRead_of_listed (h : listed v = .ok w) (hv : v.isRead) : w.isRead := by
  rcases listed_eq_ok h with ⟨items, rfl⟩ | ⟨rfl, _⟩
  · rfl
  · exact hv

/-- What was listed and normalized has nothing more to list. -/
theorem listed_normalizeItems (h : listed v = .ok w) : listed (normalizeItems w) = .ok (normalizeItems w) := by
  have double (x : Binary64) : listed (ofBinary64 x) = .ok (ofBinary64 x) := by
    unfold ofBinary64
    split <;> rfl
  rcases listed_eq_ok h with ⟨items, rfl⟩ | ⟨rfl, hboxes⟩
  · rfl
  · cases w with
    | row items => exact absurd rfl (hboxes items).1
    | array items => exact absurd rfl (hboxes items).2
    | float x => exact double x
    | scalar s =>
        cases s with
        | float64 x | float32 x => exact double x
        | int64 n | int32 n | uint64 n | bool b => rfl
    | absent | bool b | int n | text s | list items | mapping entries => rfl

/-! ## Coercion by its steps -/

/-- What coercion makes of a value once it is read. -/
def finish (kind : Kind) (v : Value) : Except CoercionError Value :=
  match kind with
  | .int => .ok (normalizeUnlessBoolean v)
  | .number => .ok (plain v)
  | .bool => .ok (if let .scalar (.bool b) := v then .bool b else v)
  | .choice => .ok v
  | .shape | .size => return normalizeItems (← listed v)

theorem coercePresent_of_not_text (h : ∀ s, v ≠ .text s) : kind.coercePresent v = kind.finish v := by
  cases v with
  | text s => exact absurd rfl (h s)
  | scalar s => cases kind <;> cases s <;> rfl
  | absent | bool b | int n | float x | list items | row items | mapping entries | array items => cases kind <;> rfl

/-- Only a choice leaves a text what it is: every other kind reads it first. -/
theorem coercePresent_eq_ok (hkind : kind ≠ .choice) (h : kind.coercePresent raw = .ok v) :
    ∃ w, (raw.isMissing = false → w.isRead) ∧ kind.finish w = .ok v := by
  by_cases htext : ∃ s, raw = .text s
  · obtain ⟨s, rfl⟩ := htext
    cases kind with
    | choice => exact absurd rfl hkind
    | int | number =>
        obtain ⟨w, hw, h⟩ := bind_eq_ok.mp h
        exact ⟨w, fun _ => isRead_of_readNumber hw, h⟩
    | shape | size =>
        obtain ⟨w, hw, h⟩ := bind_eq_ok.mp h
        exact ⟨w, fun _ => isRead_of_readSize hw, h⟩
    | bool =>
        have hread : ∃ b, v = .bool b := by
          simp only [coercePresent] at h
          split at h
          · exact ⟨true, (Except.ok.inj h).symm⟩
          · split at h
            · exact ⟨false, (Except.ok.inj h).symm⟩
            · contradiction
        obtain ⟨b, rfl⟩ := hread
        exact ⟨.bool b, fun _ => rfl, rfl⟩
  · have htext' (s : String) : raw ≠ .text s := fun hs => htext ⟨s, hs⟩
    exact ⟨raw, fun hpresent => Value.isRead_of_not_text hpresent htext', coercePresent_of_not_text htext' ▸ h⟩

/-- A value that is finished stays as it is, and it is still a value that was read. -/
theorem finish_of_finish (hw : w.isRead) (h : kind.finish w = .ok v) : v.isRead ∧ kind.finish v = .ok v := by
  cases kind with
  | int =>
      obtain rfl := Except.ok.inj h
      exact ⟨isRead_normalizeUnlessBoolean hw, congrArg Except.ok (normalizeUnlessBoolean_idem w)⟩
  | number =>
      obtain rfl := Except.ok.inj h
      exact ⟨isRead_plain hw, congrArg Except.ok (plain_plain w)⟩
  | bool =>
      obtain rfl := Except.ok.inj h
      cases w with
      | scalar s => cases s <;> exact ⟨rfl, rfl⟩
      | absent | text s => contradiction
      | bool b | int n | float x | list items | row items | mapping entries | array items => exact ⟨rfl, rfl⟩
  | choice =>
      obtain rfl := Except.ok.inj h
      exact ⟨hw, rfl⟩
  | shape | size =>
      obtain ⟨l, hl, h⟩ := bind_eq_ok.mp h
      obtain rfl := pure_eq_ok.mp h
      refine ⟨isRead_normalizeItems (isRead_of_listed hl hw), bind_eq_ok.mpr ⟨_, listed_normalizeItems hl, ?_⟩⟩
      rw [normalizeItems_idem, pure_eq_ok]

/-- A coerced value is coerced to itself. -/
theorem coerce_of_coerce (h : kind.coerce raw = .ok v) : kind.coerce v = .ok v := by
  unfold coerce at h
  split at h
  · obtain rfl := Except.ok.inj h
    rfl
  · next hmissing =>
      by_cases hkind : kind = .choice
      · subst hkind
        obtain rfl := Except.ok.inj h
        exact if_neg hmissing
      · obtain ⟨w, hw, hfinish⟩ := coercePresent_eq_ok hkind h
        obtain ⟨hread, hrest⟩ := finish_of_finish (hw (by simpa using hmissing)) hfinish
        have hpresent : ¬ v.isMissing = true := by simp [Value.isMissing_of_isRead hread]
        rw [coerce, if_neg hpresent, coercePresent_of_not_text (Value.ne_text_of_isRead hread), hrest]

end Kind

end LayerStack
