import LayerStack.Proofs.Optimizer

/-!
# LayerStack.Proofs.Optimizer.Part

A step of an optimizer, parameter by parameter.

What there is of one parameter is its slot and its tensor (`Part`).  What a gradient comes to hangs on nothing but the part it
belongs to, and it leaves those of others alone (`run_follow`).  So a step has a result where every parameter has one
(`followAll_eq_ok_iff`), and leaves of a parameter what its own gradient leaves.  But a gradient that fails keeps the ones
behind it from being heard (`part_followAll`).
-/

namespace LayerStack

open NamedTensors Attempt

variable {α : Type}

/-! ## Parts -/

/-- What there is of one parameter: what is kept of its gradients, and the tensor. -/
structure Part (α : Type) where
  slot : Option (Slot α)
  parameter : Option (AnyTensor α)

namespace NamedTensors

theorem lookup_update (named new : NamedTensors α) (name : String) :
    (named.update new).lookup name = (named.lookup name).map fun x => (new.lookup name).getD x := by
  induction named with
  | nil => rfl
  | cons p named ih =>
      obtain ⟨name', x⟩ := p
      rw [update, List.map_cons, List.lookup_cons, List.lookup_cons]
      by_cases h : name = name'
      · subst h
        simp
      · have hne : (name == name') = false := beq_false_of_ne h
        simp only [hne]
        exact ih

end NamedTensors

namespace Holdings

/-- What is held of one parameter. -/
def part (h : Holdings α) (name : String) : Part α := ⟨h.slots.find? (·.name == name), h.parameters.lookup name⟩

variable (h : Holdings α) {name : String} (slot : Slot α)

theorem find?_putSlot (name : String) : (h.putSlot slot).slots.find? (·.name == name) =
    (h.slots.find? (·.name == name)).map fun s => if name == slot.name then slot else s := by
  unfold putSlot
  dsimp only
  induction h.slots with
  | nil => rfl
  | cons s slots ih =>
      rw [List.map_cons, List.find?_cons, List.find?_cons]
      by_cases hs : s.name = slot.name
      · by_cases hn : slot.name = name
        · simp [hs, hn]
        · have hfound : (slot.name == name) = false := beq_false_of_ne hn
          simp only [hs, beq_self_eq_true, if_true, hfound]
          exact ih
      · have hother : (s.name == slot.name) = false := beq_false_of_ne hs
        simp only [hother, Bool.false_eq_true, if_false]
        by_cases hn : s.name = name
        · have hne : (name == slot.name) = false := by rwa [← hn]
          simp [hn, hne]
        · have hfound : (s.name == name) = false := beq_false_of_ne hn
          simp only [hfound]
          exact ih

theorem part_putSlot_of_ne (hne : name ≠ slot.name) : (h.putSlot slot).part name = h.part name := by
  have hname : (name == slot.name) = false := beq_false_of_ne hne
  rw [part, find?_putSlot]
  simp only [hname, Bool.false_eq_true, if_false, Option.map_id']
  rfl

theorem part_putSlot {s : Slot α} (hfound : h.slots.find? (·.name == slot.name) = some s) :
    (h.putSlot slot).part slot.name = ⟨some slot, h.parameters.lookup slot.name⟩ := by
  rw [part, find?_putSlot, hfound, Option.map_some, beq_self_eq_true, if_pos rfl]
  rfl

theorem part_putParameter_of_ne {name' : String} {x : AnyTensor α} (hne : name ≠ name') :
    (h.putParameter name' x).part name = h.part name := by
  have hname : (name == name') = false := beq_false_of_ne hne
  rw [part, putParameter, lookup_update, List.lookup_cons, hname]
  simp only [List.lookup_nil, Option.getD_none, Option.map_id']
  rfl

theorem part_putParameter {x y : AnyTensor α} (hlookup : h.parameters.lookup name = some y) :
    (h.putParameter name x).part name = ⟨h.slots.find? (·.name == name), some x⟩ := by
  rw [part, putParameter, lookup_update, hlookup, List.lookup_cons_self]
  rfl

end Holdings

namespace Part

variable [Scalar α]

/-- What a gradient comes to at a parameter, and what it leaves there.  One for no parameter is passed over. -/
def follow (s : OptimizerSettings) (count : Nat) (rate : Value) (gradient : AnyTensor α) (p : Part α) :
    Except RunError Unit × Part α :=
  match p with
  | ⟨some slot, some x⟩ =>
    if s.rule.isDefined then
      if s.areNumeric rate then
        match gradient.spread? slot.dims, x.as? slot.dims, s.paces? rate count slot.dims with
        | some g, some y, some paces =>
          let reach := Reach.ofSettings α s.rule rate count x.isWords gradient.isWords
          if reach.number then
            let (slot, y) := slot.step paces g y
            (.ok (), ⟨some slot, some ⟨_, y⟩⟩)
          else (.error .tooLarge, ⟨some (slot.halted reach paces g), some x⟩)
        | _, _, _ => (.error .mismatch, p)
      else (.error .illTyped, p)
    else (.error .undefined, p)
  | p => (.ok (), p)

/-- The same of a gradient that may be missing. -/
def hear (s : OptimizerSettings) (count : Nat) (rate : Value) (gradient : Option (AnyTensor α)) (p : Part α) :
    Except RunError Unit × Part α :=
  match gradient with
  | some g => p.follow s count rate g
  | none => (.ok (), p)

end Part

/-- The gradient of a parameter, if it is there. -/
def gradientOf (gradients : List (String × Option (AnyTensor α))) (name : String) : Option (AnyTensor α) :=
  (gradients.lookup name).join

section GradientOf

variable {gradients : List (String × Option (AnyTensor α))} {name q : String} {g : Option (AnyTensor α)}

theorem gradientOf_eq_none (h : name ∉ names gradients) : gradientOf gradients name = none := by
  rw [gradientOf, Entries.lookup_eq_none h]
  rfl

theorem gradientOf_cons_self : gradientOf ((name, g) :: gradients) name = g := by
  rw [gradientOf, List.lookup_cons_self]
  rfl

theorem gradientOf_cons_of_ne (hne : q ≠ name) : gradientOf ((name, g) :: gradients) q = gradientOf gradients q := by
  have hname : (q == name) = false := beq_false_of_ne hne
  rw [gradientOf, List.lookup_cons, hname]
  rfl

/-- A missing gradient is as good as none. -/
theorem gradientOf_cons_none (h : name ∉ names gradients) (q : String) :
    gradientOf ((name, none) :: gradients) q = gradientOf gradients q := by
  by_cases hq : q = name
  · subst hq
    rw [gradientOf_cons_self, gradientOf_eq_none h]
  · exact gradientOf_cons_of_ne hq

end GradientOf

namespace Optimizer

variable [Scalar α] (o : Optimizer α) (rate : Value) (name : String) (gradient : AnyTensor α) (h : Holdings α)

/-! ## One gradient -/

/-- What a gradient comes to is seen from what there is of its parameter, and it does not change what there is of another
one. -/
theorem run_follow :
    (o.follow rate name gradient h).1 = ((h.part name).follow o.settings o.count rate gradient).1 ∧
      (o.follow rate name gradient h).2.part name = ((h.part name).follow o.settings o.count rate gradient).2 ∧
      ∀ q ≠ name, (o.follow rate name gradient h).2.part q = h.part q := by
  have hpart : h.part name = ⟨h.slots.find? (·.name == name), h.parameters.lookup name⟩ := rfl
  rw [follow, Attempt.run_bind, Attempt.run_get, hpart]
  rcases hslot : h.slots.find? (·.name == name) with _ | slot
  · simp only [hslot, Part.follow]
    exact ⟨rfl, hpart.trans (by rw [hslot]), fun _ _ => rfl⟩
  rcases hlookup : h.parameters.lookup name with _ | x
  · simp only [hslot, hlookup, Part.follow]
    exact ⟨rfl, hpart.trans (by rw [hslot, hlookup]), fun _ _ => rfl⟩
  have hsame : h.part name = ⟨some slot, some x⟩ := hpart.trans (by rw [hslot, hlookup])
  obtain rfl : slot.name = name := by simpa using List.find?_some hslot
  simp only [hslot, hlookup, Part.follow]
  cases hdefined : o.settings.rule.isDefined with
  | false => exact ⟨rfl, hsame, fun _ _ => rfl⟩
  | true =>
      cases hnumeric : o.settings.areNumeric rate with
      | false => exact ⟨rfl, hsame, fun _ _ => rfl⟩
      | true =>
          simp only [Bool.not_true, Bool.false_eq_true, if_false, if_true]
          rcases gradient.spread? slot.dims with _ | g
          · exact ⟨rfl, hsame, fun _ _ => rfl⟩
          rcases x.as? slot.dims with _ | y
          · exact ⟨rfl, hsame, fun _ _ => rfl⟩
          rcases o.settings.paces? rate o.count slot.dims with _ | paces
          · exact ⟨rfl, hsame, fun _ _ => rfl⟩
          dsimp only
          split
          · refine ⟨rfl, ?_, fun q hne => ?_⟩
            · have hstepped := h.part_putSlot (slot.step paces g y).1 hslot
              refine (Holdings.part_putParameter (h.putSlot (slot.step paces g y).1) hlookup).trans ?_
              rw [Part.mk.injEq]
              exact ⟨congrArg Part.slot hstepped, rfl⟩
            · exact (Holdings.part_putParameter_of_ne _ hne).trans (h.part_putSlot_of_ne _ hne)
          · refine ⟨rfl, ?_, fun q hne => ?_⟩
            · exact (h.part_putSlot (slot.halted _ paces g) hslot).trans (by rw [Slot.halted, hlookup])
            · exact h.part_putSlot_of_ne (slot.halted _ paces g) hne

/-! ## Gradients in a row -/

theorem followAll_cons_some (rest : List (String × Option (AnyTensor α))) :
    o.followAll rate ((name, some gradient) :: rest) =
      (o.follow rate name gradient >>= fun _ => o.followAll rate rest) := rfl

variable {gradients : List (String × Option (AnyTensor α))}

/-- Gradients are followed to the end where each of them is at its own parameter. -/
theorem followAll_eq_ok_iff (hnodup : (names gradients).Nodup) :
    (o.followAll rate gradients h).1 = .ok () ↔
      ∀ q, ((h.part q).hear o.settings o.count rate (gradientOf gradients q)).1 = .ok () := by
  induction gradients generalizing h with
  | nil => exact ⟨fun _ _ => rfl, fun _ => rfl⟩
  | cons p rest ih =>
      obtain ⟨name, _ | g⟩ := p
      · obtain ⟨hhead, htail⟩ := List.nodup_cons.mp hnodup
        simp only [gradientOf_cons_none hhead]
        exact ih h htail
      · obtain ⟨hhead, htail⟩ := List.nodup_cons.mp hnodup
        obtain ⟨hresult, _, hothers⟩ := o.run_follow rate name g h
        rw [followAll_cons_some, Attempt.run_bind]
        rcases hrun : o.follow rate name g h with ⟨e | ⟨⟩, h'⟩
        · rw [hrun] at hresult
          refine ⟨fun hok => by simp at hok, fun hall => ?_⟩
          have hname := hall name
          rw [gradientOf_cons_self, Part.hear, ← hresult] at hname
          simp at hname
        · rw [hrun] at hresult hothers
          refine (ih h' htail).trans ⟨fun hall q => ?_, fun hall q => ?_⟩
          · by_cases hq : q = name
            · subst hq
              rw [gradientOf_cons_self, Part.hear, ← hresult]
            · rw [gradientOf_cons_of_ne hq, ← hothers q hq]
              exact hall q
          · by_cases hq : q = name
            · subst hq
              rw [gradientOf_eq_none hhead, Part.hear]
            · rw [hothers q hq, ← gradientOf_cons_of_ne (g := some g) hq]
              exact hall q

/-- What gradients leave of a parameter is what its own one leaves, unless another one fails before it. -/
theorem part_followAll (hnodup : (names gradients).Nodup) (q : String) :
    (o.followAll rate gradients h).2.part q =
        ((h.part q).hear o.settings o.count rate (gradientOf gradients q)).2 ∨
      (∃ r ≠ q, ((h.part r).hear o.settings o.count rate (gradientOf gradients r)).1 ≠ .ok ()) ∧
        (o.followAll rate gradients h).2.part q = h.part q := by
  induction gradients generalizing h with
  | nil => exact .inl rfl
  | cons p rest ih =>
      obtain ⟨name, _ | g⟩ := p
      · obtain ⟨hhead, htail⟩ := List.nodup_cons.mp hnodup
        simp only [gradientOf_cons_none hhead]
        exact ih h htail
      · obtain ⟨hhead, htail⟩ := List.nodup_cons.mp hnodup
        obtain ⟨hresult, hpart, hothers⟩ := o.run_follow rate name g h
        rw [followAll_cons_some, Attempt.run_bind]
        rcases hrun : o.follow rate name g h with ⟨e | ⟨⟩, h'⟩
        · rw [hrun] at hresult hpart hothers
          by_cases hq : q = name
          · subst hq
            rw [gradientOf_cons_self]
            exact .inl hpart
          · refine .inr ⟨⟨name, Ne.symm hq, ?_⟩, hothers q hq⟩
            rw [gradientOf_cons_self, Part.hear, ← hresult]
            simp
        · rw [hrun] at hpart hothers
          have hrest := ih h' htail
          by_cases hq : q = name
          · subst hq
            rw [gradientOf_eq_none hhead] at hrest
            rw [gradientOf_cons_self]
            have hkept : (o.followAll rate rest h').2.part q = h'.part q := hrest.elim id And.right
            exact .inl (hkept.trans hpart)
          · rw [hothers q hq] at hrest
            rw [gradientOf_cons_of_ne hq]
            refine hrest.imp_right fun ⟨⟨r, hr, hfails⟩, hkept⟩ => ⟨⟨r, hr, ?_⟩, hkept⟩
            have hother : r ≠ name := by
              rintro rfl
              rw [gradientOf_eq_none hhead] at hfails
              exact hfails rfl
            rwa [gradientOf_cons_of_ne hother, ← hothers r hother]

end Optimizer

end LayerStack
