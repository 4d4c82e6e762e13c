import LayerStack.Proofs.Operator.Convolution

/-!
# LayerStack.Proofs.Operator.Pooling

A pooled image is made of the largest cells under the windows.

Among values that are compared as numbers are (`Comparable`), a window takes the first largest of the cells under its
taps.  That holds of what has been read so far, tap by tap (`Leading`), whatever padding there is in between: padding is
below every cell, so it leads only until the first cell.  And there is a cell under every window, so padding never leads
at the end (`taken_spec`).
-/

namespace LayerStack

/-- Values that are compared as numbers are, and that are above the least scalar, if there is one. -/
structure Comparable {α : Type} [Scalar α] (finite : α → Prop) : Prop where
  total : ∀ {a b}, finite a → finite b → a ≤ b ∨ b ≤ a
  trans : ∀ {a b c}, finite a → finite b → finite c → a ≤ b → b ≤ c → a ≤ c
  least : ∀ {l}, Scalar.least? = some l → (l : α) ≤ l
  above : ∀ {l a}, Scalar.least? = some l → finite a → l ≤ a ∧ ¬ a ≤ l

theorem Comparable.refl {α : Type} [Scalar α] {finite : α → Prop} (h : Comparable finite) {a : α} (ha : finite a) :
    a ≤ a :=
  (h.total ha ha).elim id id

namespace WindowGrid

variable {α : Type} [Scalar α] {finite : α → Prop} {read : Tap → Option α} {seen rest : List Tap} {tap : Tap} {a : α}

/-! ## The first largest of some readings -/

/-- Of the values read by some taps, that of this one is the largest, and all before it are smaller. -/
structure Leading (finite : α → Prop) (read : Tap → Option α) (seen : List Tap) (tap : Tap) (a : α) : Prop where
  reads : read tap = some a
  value : finite a
  largest : ∀ t ∈ seen, ∀ v, read t = some v → finite v → v ≤ a
  first : ∃ before after, seen = before ++ tap :: after ∧ ∀ t ∈ before, ∀ v, read t = some v → finite v → ¬ a ≤ v

/-- No value has been read so far; if anything leads, it is padding. -/
structure Blank (finite : α → Prop) (read : Tap → Option α) (seen : List Tap) (best : Option (Tap × α)) : Prop where
  unread : ∀ t ∈ seen, ∀ v, read t = some v → ¬ finite v
  padding : ∀ p, best = some p → Scalar.least? = some p.2

/-- What the best of some readings is. -/
def Standing (finite : α → Prop) (read : Tap → Option α) (seen : List Tap) (best : Option (Tap × α)) : Prop :=
  Blank finite read seen best ∨ ∃ tap a, best = some (tap, a) ∧ Leading finite read seen tap a

/-- One more reading: the step of `leader?`. -/
def better (read : Tap → Option α) (best : Option (Tap × α)) (tap : Tap) : Option (Tap × α) :=
  match read tap, best with
  | none, best => best
  | some a, none => some (tap, a)
  | some a, some (first, b) => if Scalar.leads a b then some (tap, a) else some (first, b)

/-- The first value leads over padding. -/
theorem Blank.leading_append {best : Option (Tap × α)} (h : Blank finite read seen best) (hread : read tap = some a)
    (ha : finite a) (hle : a ≤ a) : Leading finite read (seen ++ [tap]) tap a where
  reads := hread
  value := ha
  largest t ht v hv hfinite := by
    rcases List.mem_append.mp ht with ht | ht
    · exact absurd hfinite (h.unread t ht v hv)
    · obtain rfl := List.mem_singleton.mp ht
      obtain rfl := Option.some.inj (hread.symm.trans hv)
      exact hle
  first := ⟨seen, [], rfl, fun t ht v hv hfinite => absurd hfinite (h.unread t ht v hv)⟩

/-- Nothing changes with a reading that is no value. -/
theorem Blank.append {best best' : Option (Tap × α)} (h : Blank finite read seen best)
    (hread : ∀ v, read tap = some v → ¬ finite v) (hbest : ∀ p, best' = some p → Scalar.least? = some p.2) :
    Blank finite read (seen ++ [tap]) best' where
  unread t ht := by
    rcases List.mem_append.mp ht with ht | ht
    · exact h.unread t ht
    · obtain rfl := List.mem_singleton.mp ht
      exact hread
  padding := hbest

/-- What leads stays in the lead over a reading that is no larger. -/
theorem Leading.append {t : Tap} (h : Leading finite read seen tap a)
    (hread : ∀ v, read t = some v → finite v → v ≤ a) : Leading finite read (seen ++ [t]) tap a where
  reads := h.reads
  value := h.value
  largest t' ht' := by
    rcases List.mem_append.mp ht' with ht' | ht'
    · exact h.largest t' ht'
    · obtain rfl := List.mem_singleton.mp ht'
      exact hread
  first := by
    obtain ⟨before, after, rfl, hbefore⟩ := h.first
    exact ⟨before, after ++ [t], by simp, hbefore⟩

/-- A larger value takes the lead. -/
theorem Leading.overtaken (hfinite : Comparable finite) {t : Tap} {v : α} (h : Leading finite read seen tap a)
    (hread : read t = some v) (hv : finite v) (hnot : ¬ v ≤ a) :
    Leading finite read (seen ++ [t]) t v where
  reads := hread
  value := hv
  largest t' ht' v' hv' hfinite' := by
    rcases List.mem_append.mp ht' with ht' | ht'
    · have hle : a ≤ v := (hfinite.total h.value hv).resolve_right hnot
      exact hfinite.trans hfinite' h.value hv (h.largest t' ht' v' hv' hfinite') hle
    · obtain rfl := List.mem_singleton.mp ht'
      obtain rfl := Option.some.inj (hread.symm.trans hv')
      exact hfinite.refl hv
  first := by
    refine ⟨seen, [], rfl, fun t' ht' v' hv' hfinite' hle' => hnot ?_⟩
    exact hfinite.trans hv hfinite' h.value hle' (h.largest t' ht' v' hv' hfinite')

/-- What the best of some readings is, one reading on.  Readings are values or padding. -/
theorem Standing.better (hfinite : Comparable finite)
    (hread : ∀ {t v}, read t = some v → finite v ∨ Scalar.least? = some v) {best : Option (Tap × α)}
    (h : Standing finite read seen best) (t : Tap) :
    Standing finite read (seen ++ [t]) (better read best t) := by
  have hpadding {v : α} (hl : Scalar.least? = some v) : ¬ finite v := fun hv =>
    (hfinite.above hl hv).2 (hfinite.above hl hv).1
  unfold WindowGrid.better
  cases hv : read t with
  | none =>
      have hnone : ∀ v, read t = some v → ¬ finite v := by simp [hv]
      rcases h with h | ⟨tap, a, rfl, h⟩
      · exact .inl (h.append hnone h.padding)
      · exact .inr ⟨tap, a, rfl, h.append fun v hv' => absurd hv' (by simp [hv])⟩
  | some v =>
      rcases h with h | ⟨tap, a, rfl, h⟩
      · -- Nothing but padding leads so far.
        rcases hread hv with hvalue | hl
        · have hleading := h.leading_append hv hvalue (hfinite.refl hvalue)
          rcases best with _ | ⟨first, b⟩
          · exact .inr ⟨t, v, rfl, hleading⟩
          · have hb := h.padding _ rfl
            have hleads : Scalar.leads v b = true := by
              simpa [Scalar.leads] using ⟨hfinite.least hb, (hfinite.above hb hvalue).2⟩
            simp only [hleads, if_true]
            exact .inr ⟨t, v, rfl, hleading⟩
        · have hblank : ∀ v', read t = some v' → ¬ finite v' := by
            rintro v' hv'
            obtain rfl := Option.some.inj (hv.symm.trans hv')
            exact hpadding hl
          refine .inl (h.append hblank fun p hp => ?_)
          rcases best with _ | ⟨first, b⟩
          · obtain rfl := Option.some.inj hp
            exact hl
          · simp only at hp
            split at hp
            · obtain rfl := Option.some.inj hp
              exact hl
            · exact h.padding _ hp
      · -- A value leads.
        by_cases hleads : Scalar.leads v a = true
        · simp only [hleads, if_true]
          have hnot : ¬ v ≤ a := (by simpa [Scalar.leads] using hleads : a ≤ a ∧ ¬ v ≤ a).2
          rcases hread hv with hvalue | hl
          · exact .inr ⟨t, v, rfl, h.overtaken hfinite hv hvalue hnot⟩
          · exact absurd (hfinite.above hl h.value).1 hnot
        · simp only [hleads]
          refine .inr ⟨tap, a, rfl, h.append fun v' hv' hvalue => ?_⟩
          obtain rfl := Option.some.inj (hv.symm.trans hv')
          by_contra hnot
          exact hleads (by simpa [Scalar.leads] using ⟨hfinite.refl h.value, hnot⟩)

/-- What the best of all readings is: if any of them is a value, the first largest. -/
theorem leader?_spec (hfinite : Comparable finite)
    (hread : ∀ {t v}, read t = some v → finite v ∨ Scalar.least? = some v) {taps : List Tap}
    (hvalue : ∃ t ∈ taps, ∃ v, read t = some v ∧ finite v) :
    ∃ tap a, leader? read taps = some (tap, a) ∧ Leading finite read taps tap a := by
  have hstanding (rest : List Tap) : ∀ {seen best}, Standing finite read seen best →
      Standing finite read (seen ++ rest) (rest.foldl (better read) best) := by
    induction rest with
    | nil => simp
    | cons t rest ih =>
        intro seen best h
        simpa using ih (h.better hfinite hread t)
  have hnone : Standing finite read [] none := .inl ⟨by simp, by simp⟩
  rcases hstanding taps hnone with h | h
  · obtain ⟨t, ht, v, hv, hv'⟩ := hvalue
    exact absurd hv' (h.unread t ht v hv)
  · exact h

/-! ## The taps of a window -/

section Taps

variable {g : WindowGrid}

theorem mem_taps {t : Tap} : t ∈ g.taps ↔ t.1 < g.rows.kernel ∧ t.2 < g.columns.kernel := by
  obtain ⟨i, j⟩ := t
  simp [taps]

/-- The taps are in row-major order. -/
theorem pairwise_taps (g : WindowGrid) : g.taps.Pairwise fun t t' => t.1 < t'.1 ∨ t.1 = t'.1 ∧ t.2 < t'.2 := by
  rw [taps, List.pairwise_flatMap]
  constructor
  · intro i _
    exact List.pairwise_map.mpr (List.pairwise_lt_range.imp fun h => .inr ⟨rfl, h⟩)
  · refine List.pairwise_lt_range.imp fun h t ht t' ht' => .inl ?_
    obtain ⟨_, _, rfl⟩ := List.mem_map.mp ht
    obtain ⟨_, _, rfl⟩ := List.mem_map.mp ht'
    exact h

end Taps

/-! ## The cell a window takes -/

section Images

variable {g : WindowGrid} {h w c : Nat} {image : Tensor α [h, w, c]} {y x i j : Nat} {k : Fin c} {r r' : Fin h}
  {q q' : Fin w}

/-- The cell a window takes in a channel: of the largest of its cells the first in row-major order. -/
structure Takes (g : WindowGrid) (image : Tensor α [h, w, c]) (y x : Nat) (k : Fin c) (r : Fin h) (q : Fin w) :
    Prop where
  covered : g.Covers y x r q
  largest : ∀ r' q', g.Covers y x r' q' → (pixel image r' q').entry k ≤ (pixel image r q).entry k
  first : ∀ r' q', g.Covers y x r' q' → (pixel image r q).entry k ≤ (pixel image r' q').entry k →
    r < r' ∨ r = r' ∧ q ≤ q'

/-- A window takes one cell. -/
theorem Takes.unique (h : g.Takes image y x k r q) (h' : g.Takes image y x k r' q') : r = r' ∧ q = q' := by
  have hfirst := h.first r' q' h'.covered (h'.largest r q h.covered)
  have hfirst' := h'.first r q h.covered (h.largest r' q' h'.covered)
  omega

omit [Scalar α] in
theorem reading?_of_onCell (hg : g.Proper) {least : Option α} (hcell : g.OnCell y x i j r q) :
    g.reading? least image y x k (i, j) = some ((pixel image r q).entry k) := by
  simp only [reading?, (cell?_eq_some hg).mpr hcell]

omit [Scalar α] in
/-- What is read and is not padding is read from a cell. -/
theorem onCell_of_reading? (hg : g.Proper) {least : Option α} {v : α}
    (hread : g.reading? least image y x k (i, j) = some v) (hv : least ≠ some v) :
    ∃ r q, g.OnCell y x i j r q ∧ v = (pixel image r q).entry k := by
  unfold reading? at hread
  split at hread
  · next r q hcell => exact ⟨r, q, (cell?_eq_some hg).mp hcell, (Option.some.inj hread).symm⟩
  · exact absurd hread hv

/-- A window takes one of its cells, never padding: the tap that leads lies on it, and what leads is what is there. -/
theorem taken_spec (hfinite : Comparable finite) (hg : g.Proper) (himage : ∀ r q k, finite ((pixel image r q).entry k))
    (y : Fin (g.outHeight h)) (x : Fin (g.outWidth w)) (k : Fin c) :
    ∃ tap r q, (pixel (g.taken Scalar.least? image) y x).entry k = some (tap, (pixel image r q).entry k) ∧
      tap ∈ g.taps ∧ g.OnCell y x tap.1 tap.2 r q ∧ g.Takes image y x k r q := by
  have hleast {v : α} (hl : Scalar.least? = some v) : ¬ finite v := fun hv => (hfinite.above hl hv).2 (hfinite.least hl)
  have hread {t : Tap} {v : α} (hv : g.reading? Scalar.least? image y x k t = some v) :
      finite v ∨ Scalar.least? = some v := by
    by_cases hl : Scalar.least? = some v
    · exact .inr hl
    · obtain ⟨r, q, -, rfl⟩ := onCell_of_reading? hg hv hl
      exact .inl (himage r q k)
  have hvalue : ∃ t ∈ g.taps, ∃ v, g.reading? Scalar.least? image y x k t = some v ∧ finite v := by
    obtain ⟨r, q, i, hi, j, hj, hcell⟩ := exists_covers hg y.isLt x.isLt
    exact ⟨(i, j), mem_taps.mpr ⟨hi, hj⟩, _, reading?_of_onCell hg hcell, himage r q k⟩
  obtain ⟨tap, a, hleader, hlead⟩ := leader?_spec hfinite hread hvalue
  obtain ⟨r, q, hcell, rfl⟩ := onCell_of_reading? hg hlead.reads fun hl => hleast hl hlead.value
  obtain ⟨before, after, htaps, hbefore⟩ := hlead.first
  have hmem : tap ∈ g.taps := by simp [htaps]
  refine ⟨tap, r, q, ?_, hmem, hcell, ⟨tap.1, (mem_taps.mp hmem).1, tap.2, (mem_taps.mp hmem).2, hcell⟩, ?_, ?_⟩
  · rw [taken, pixel_ofPixels, Tensor.entry_ofEntries, hleader]
  · rintro r' q' ⟨i, hi, j, hj, hcell'⟩
    exact hlead.largest (i, j) (mem_taps.mpr ⟨hi, hj⟩) _ (reading?_of_onCell hg hcell') (himage r' q' k)
  · -- A tap that reads as much does not come before, so it is the tap itself or a later one.
    rintro r' q' ⟨i, hi, j, hj, hcell'⟩ hle
    have hmem' : (i, j) ∈ g.taps := mem_taps.mpr ⟨hi, hj⟩
    have hsorted := g.pairwise_taps
    rw [htaps] at hmem' hsorted
    have hrow := hcell.1.le_iff hcell'.1
    have hrow' := hcell'.1.le_iff hcell.1
    have hcolumn := hcell.2.le_iff hcell'.2
    rcases List.mem_append.mp hmem' with hearlier | hlater
    · exact absurd hle (hbefore _ hearlier _ (reading?_of_onCell hg hcell') (himage r' q' k))
    · rcases List.mem_cons.mp hlater with rfl | hlater
      · simp only at hrow hrow' hcolumn
        omega
      · have hafter := (List.pairwise_cons.mp (List.pairwise_append.mp hsorted).2.1).1 _ hlater
        simp only at hrow hrow' hcolumn hafter
        omega

end Images

end WindowGrid

end LayerStack
