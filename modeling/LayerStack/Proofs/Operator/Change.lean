import LayerStack.Proofs.Operator.Gradient

/-!
# LayerStack.Proofs.Operator.Change

Changes of parameters by name.

A change goes down to the parts of a layer with the names it has for them, and reaches every parameter once.  So what is
named after a change is what was named before it, tensor by tensor, and changed under its full name (`named_change`, for
every kind of weights).  Tensors keep their axes; and where no two of them have the same name, new values on those axes
are just what they are changed to (`changed_ofValues`).
-/

namespace LayerStack

variable {α : Type}

open NamedTensors

/-! ## Named tensors -/

namespace NamedTensors

/-- Every tensor changed under its name. -/
def changed (f : TensorChange α) (named : NamedTensors α) : NamedTensors α :=
  named.map fun (name, x) => (name, ⟨x.dims, f name x.value⟩)

@[simp] theorem changed_nil (f : TensorChange α) : changed f [] = [] := rfl

@[simp] theorem changed_append (f : TensorChange α) (named named' : NamedTensors α) :
    changed f (named ++ named') = changed f named ++ changed f named' := List.map_append

/-- Names put before others are taken off again by the change below them. -/
theorem withPrefix_changed (first : String) (f : TensorChange α) (named : NamedTensors α) :
    withPrefix first (changed (f.under first) named) = changed f (withPrefix first named) := by
  rw [withPrefix, withPrefix, changed, changed, List.map_map, List.map_map]
  rfl

@[simp] theorem axes_changed (f : TensorChange α) (named : NamedTensors α) : axes (changed f named) = axes named := by
  rw [axes, changed, List.map_map]
  rfl

end NamedTensors

namespace TensorChange

/-- A value on the axes it is to fit stays as it is. -/
theorem fitted_self (s : Dims) (x : Tensor α s) : fitted s s x = ⟨s, x⟩ := by
  cases s with
  | nil => rfl
  | cons n s =>
      match n with
      | 0 | n + 2 => rfl
      | 1 =>
          have hlong : ¬ (1 :: s).length ≤ s.length := Nat.not_succ_le_self s.length
          show (if (1 :: s).length ≤ s.length then fitted (1 :: s) s (Tensor.row x 0) else ⟨1 :: s, x⟩) = _
          rw [if_neg hlong]

/-- A value on the axes of a tensor takes its place. -/
theorem ofValues_of_lookup {values : NamedTensors α} {name : String} {s : Dims} {x y : Tensor α s}
    (h : values.lookup name = some ⟨s, y⟩) : ofValues values name x = y := by
  simp only [ofValues, h]
  rw [fitted_self, AnyTensor.spread?, Tensor.stretch?_self]
  rfl

/-- Tensors change to those found under their names, where these are on the same axes. -/
theorem changed_ofValues_of_lookup {named values all : NamedTensors α} (haxes : axes values = axes named)
    (hall : ∀ p ∈ values, all.lookup p.1 = some p.2) : changed (ofValues all) named = values := by
  induction named generalizing values with
  | nil => exact (List.map_eq_nil_iff.mp haxes).symm
  | cons p named ih =>
      obtain ⟨name, s, x⟩ := p
      cases values with
      | nil => contradiction
      | cons q values =>
          obtain ⟨name', s', y⟩ := q
          obtain ⟨hhead, htail⟩ := List.cons.inj haxes
          obtain ⟨rfl, rfl⟩ := Prod.mk.inj hhead
          obtain ⟨hfirst, hrest⟩ := List.forall_mem_cons.mp hall
          rw [← ih htail hrest]
          exact congrArg (fun y => (name', (⟨s', y⟩ : AnyTensor α)) :: changed (ofValues all) named)
            (ofValues_of_lookup hfirst)

/-- New values on the axes of the old ones are what comes out, if no two names are equal. -/
theorem changed_ofValues {named values : NamedTensors α} (haxes : axes values = axes named)
    (hnodup : (names named).Nodup) : changed (ofValues values) named = values := by
  have hnodup' : (names values).Nodup := by rwa [← names_axes, haxes, names_axes]
  exact changed_ofValues_of_lookup haxes fun _ hp => Entries.lookup_of_mem hnodup' hp

end TensorChange

/-! ## Kinds of weights -/

/-- A part of some weights changes under the name it has there. -/
theorem changed_part {W : Type} [Weights W α]
    (hpart : ∀ (f : TensorChange α) (w : W), Weights.named (Weights.change f w) = changed f (Weights.named w))
    (first : String) (f : TensorChange α) (w : W) :
    withPrefix first (Weights.named (Weights.change (f.under first) w)) =
      changed f (withPrefix first (Weights.named w)) := by
  rw [hpart, withPrefix_changed]

theorem Affine.named_change {m n : Nat} (f : TensorChange α) (a : Affine α m n) :
    Weights.named (Weights.change f a) = changed f (Weights.named a) := by
  obtain ⟨weight, _ | bias⟩ := a <;> rfl

theorem Kernel.named_change {z : ConvSizes} (f : TensorChange α) (k : Kernel α z) :
    Weights.named (Weights.change f k) = changed f (Weights.named k) := by
  obtain ⟨weight, _ | bias⟩ := k <;> rfl

theorem ScaleShift.named_change {s : Dims} (f : TensorChange α) (p : ScaleShift α s) :
    Weights.named (Weights.change f p) = changed f (Weights.named p) := by
  obtain ⟨_ | gamma, _ | beta⟩ := p <;> rfl

theorem FeedForwardWeights.named_change {d f : Nat} (g : TensorChange α) (w : FeedForwardWeights α d f) :
    Weights.named (Weights.change g w) = changed g (Weights.named w) := by
  have hlinear1 := changed_part Affine.named_change "linear1" g w.linear1
  have hlinear2 := changed_part Affine.named_change "linear2" g w.linear2
  calc Weights.named (Weights.change g w)
      = changed g (withPrefix "linear1" (Weights.named w.linear1))
        ++ changed g (withPrefix "linear2" (Weights.named w.linear2)) := by
        rw [← hlinear1, ← hlinear2]
        rfl
    _ = changed g (Weights.named w) := (changed_append _ _ _).symm

theorem AttentionWeights.named_change {d h k v : Nat} (g : TensorChange α) (w : AttentionWeights α d h k v) :
    Weights.named (Weights.change g w) = changed g (Weights.named w) := by
  have hquery := changed_part Affine.named_change "query" g w.query
  have hkey := changed_part Affine.named_change "key" g w.key
  have hvalue := changed_part Affine.named_change "value" g w.value
  have houtput := changed_part Affine.named_change "output" g w.output
  calc Weights.named (Weights.change g w)
      = changed g (withPrefix "query" (Weights.named w.query)) ++ changed g (withPrefix "key" (Weights.named w.key))
        ++ changed g (withPrefix "value" (Weights.named w.value))
        ++ changed g (withPrefix "output" (Weights.named w.output)) := by
        rw [← hquery, ← hkey, ← hvalue, ← houtput]
        rfl
    _ = changed g (Weights.named w) := by
        simp only [← changed_append]
        rfl

theorem BlockWeights.named_change {d h k f : Nat} (g : TensorChange α) (w : BlockWeights α d h k f) :
    Weights.named (Weights.change g w) = changed g (Weights.named w) := by
  have hattention := changed_part AttentionWeights.named_change "attention" g w.attention
  have hnorm1 := changed_part ScaleShift.named_change "norm1" g w.norm1
  have hfeedForward := changed_part FeedForwardWeights.named_change "ffn" g w.feedForward
  have hnorm2 := changed_part ScaleShift.named_change "norm2" g w.norm2
  calc Weights.named (Weights.change g w)
      = changed g (withPrefix "attention" (Weights.named w.attention))
        ++ changed g (withPrefix "norm1" (Weights.named w.norm1))
        ++ changed g (withPrefix "ffn" (Weights.named w.feedForward))
        ++ changed g (withPrefix "norm2" (Weights.named w.norm2)) := by
        rw [← hattention, ← hnorm1, ← hfeedForward, ← hnorm2]
        rfl
    _ = changed g (Weights.named w) := by
        simp only [← changed_append]
        rfl

/-! ## Operators -/

namespace Operator

theorem parameters_change (f : TensorChange α) (o : Operator α) : (o.change f).parameters = changed f o.parameters := by
  cases o with
  | dense c => exact c.layer.map.named_change f
  | conv2d c => exact c.layer.kernel.named_change f
  | layerNorm c => exact c.layer.weights.named_change f
  | embedding c =>
      cases htrainable : c.layer.trainable with
      | true => simp [change, parameters, htrainable, embeddingTable, changed]
      | false => simp [change, parameters, htrainable]
  | positions c =>
      cases hlearned : c.layer.learned with
      | true => simp [change, parameters, hlearned, encodingTable, changed]
      | false => simp [change, parameters, hlearned]
  | attention c => exact c.layer.weights.named_change f
  | feedForward c => exact c.layer.weights.named_change f
  | transformerBlock c => exact c.layer.weights.named_change f
  | maxPool2D | dropout | flatten | average | undefined => rfl

/-- Frozen weights are not reached. -/
theorem frozen_change (f : TensorChange α) (o : Operator α) : (o.change f).frozen = o.frozen := by
  cases o with
  | embedding c => cases htrainable : c.layer.trainable <;> simp [change, frozen, htrainable]
  | positions c => cases hlearned : c.layer.learned <;> simp [change, frozen, hlearned]
  | dense | conv2d | layerNorm | attention | feedForward | transformerBlock | maxPool2D | dropout | flatten | average
  | undefined => rfl

/-- Neither are the tables that are no weights. -/
theorem constants_change (f : TensorChange α) (o : Operator α) : (o.change f).constants = o.constants := by
  cases o with
  | embedding c => cases htrainable : c.layer.trainable <;> simp [change, constants, htrainable]
  | positions c => cases hlearned : c.layer.learned <;> simp [change, constants, hlearned]
  | dense | conv2d | layerNorm | attention | feedForward | transformerBlock | maxPool2D | dropout | flatten | average
  | undefined => rfl

end Operator

end LayerStack
