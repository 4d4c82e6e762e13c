import LayerStack.Optimizer
import LayerStack.Proofs.Attempt
import LayerStack.Proofs.Operator.Gradient

/-!
# LayerStack.Proofs.Optimizer

What a step of an optimizer leaves of the parameters it is given.

A gradient moves the entries of one parameter.  However far a step gets, it leaves the parameters under their names and
on their axes (`axes_step`).
-/

namespace LayerStack

open NamedTensors Attempt

variable {α : Type}

/-- A value on given axes is that of a tensor on those. -/
theorem AnyTensor.dims_of_as? {x : AnyTensor α} {s : Dims} {y : Tensor α s} (h : x.as? s = some y) : x.dims = s := by
  unfold as? at h
  split at h
  · assumption
  · contradiction

namespace Holdings

/-- The parameters are those of before on the same axes, if no two names are equal. -/
def Refits (h h' : Holdings α) : Prop := (names h.parameters).Nodup → axes h'.parameters = axes h.parameters

theorem Refits.refl (h : Holdings α) : h.Refits h := fun _ => rfl

theorem Refits.trans {h h' h'' : Holdings α} (hfirst : h.Refits h') (hsecond : h'.Refits h'') : h.Refits h'' := by
  intro hnodup
  have haxes := hfirst hnodup
  have hnodup' : (names h'.parameters).Nodup := by rwa [← names_axes, haxes, names_axes]
  exact (hsecond hnodup').trans haxes

/-- A tensor on the axes of a parameter takes its place. -/
theorem refits_putParameter (h : Holdings α) {name : String} {x y : AnyTensor α}
    (hlookup : h.parameters.lookup name = some x) (hdims : y.dims = x.dims) : h.Refits (h.putParameter name y) := by
  intro hnodup
  refine axes_update hnodup ?_
  have hmem : (name, x.dims) ∈ axes h.parameters := List.mem_map_of_mem (Entries.mem_of_lookup hlookup)
  simpa [hdims] using hmem

end Holdings

namespace Optimizer

variable [Scalar α]

theorem keeps_follow (o : Optimizer α) (rate : Value) (name : String) (gradient : AnyTensor α) :
    Keeps Holdings.Refits (o.follow rate name gradient) := by
  intro h
  rw [follow, Attempt.run_bind, Attempt.run_get]
  cases hslot : h.slots.find? (·.name == name) with
  | none =>
      simp only [hslot]
      exact Holdings.Refits.refl h
  | some slot =>
      cases hlookup : h.parameters.lookup name with
      | none =>
          simp only [hslot, hlookup]
          exact Holdings.Refits.refl h
      | some x =>
          simp only [hslot, hlookup]
          split
          · exact Holdings.Refits.refl h
          split
          · exact Holdings.Refits.refl h
          rcases gradient.spread? slot.dims with _ | g
          · exact Holdings.Refits.refl h
          rcases hy : x.as? slot.dims with _ | y
          · exact Holdings.Refits.refl h
          rcases o.settings.paces? rate o.count slot.dims with _ | paces
          · exact Holdings.Refits.refl h
          dsimp only
          split
          · exact Holdings.refits_putParameter _ hlookup (AnyTensor.dims_of_as? hy).symm
          · exact Holdings.Refits.refl h

theorem keeps_followAll (o : Optimizer α) (rate : Value) (gradients : List (String × Option (AnyTensor α))) :
    Keeps Holdings.Refits (o.followAll rate gradients) := by
  induction gradients with
  | nil => exact keeps_pure Holdings.Refits.refl _
  | cons p rest ih =>
      obtain ⟨name, _ | g⟩ := p
      · exact ih
      · exact keeps_bind Holdings.Refits.trans (o.keeps_follow rate name g) fun _ => ih

/-- A step leaves the parameters under their names and on their axes. -/
theorem axes_step (o : Optimizer α) (gradients : List (String × Option (AnyTensor α))) (rate : Option Value)
    {parameters : NamedTensors α} (hnodup : (names parameters).Nodup) :
    axes (o.step gradients rate parameters).2.1 = axes parameters := by
  rw [step]
  cases hslots : o.slots with
  | none => rfl
  | some slots => exact keeps_followAll _ _ gradients ⟨slots, parameters⟩ hnodup

end Optimizer

end LayerStack
