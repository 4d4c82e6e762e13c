import LayerStack.Operator

/-!
# LayerStack.Proofs.Operator.Names

The names of an operator's weights.

A part of a layer puts its own name before those of its tensors, and a part of that part before that, so the names of a
transformer block go through three levels.  For every kind of weights there is a list of all names there can be, of which
those of given weights are a part, in order; no name is in the list twice (`nodup_parameters`).
-/

namespace LayerStack

variable {α : Type}

/-- The names of named things, in order. -/
def names {β : Type} (named : List (String × β)) : List String := named.map (·.1)

@[simp] theorem names_append {β : Type} (named named' : List (String × β)) :
    names (named ++ named') = names named ++ names named' := List.map_append

@[simp] theorem names_withPrefix {β : Type} (first : String) (named : List (String × β)) :
    names (withPrefix first named) = (names named).map (first ++ "_" ++ ·) := by
  simp [names, withPrefix]

theorem sublist_namedOption {s : Dims} (name : String) (x : Option (Tensor α s)) :
    (names (namedOption name x)).Sublist [name] := by
  cases x with
  | none => exact List.nil_sublist _
  | some x => exact List.Sublist.refl _

theorem sublist_withPrefix {β : Type} (first : String) {named : List (String × β)} {all : List String}
    (h : (names named).Sublist all) : (names (withPrefix first named)).Sublist (all.map (first ++ "_" ++ ·)) := by
  rw [names_withPrefix]
  exact h.map _

theorem sublist_append {β : Type} {named named' : List (String × β)} {all all' : List String}
    (h : (names named).Sublist all) (h' : (names named').Sublist all') :
    (names (named ++ named')).Sublist (all ++ all') := by
  rw [names_append]
  exact h.append h'

/-! ## Kinds of weights -/

def Affine.allNames : List String := ["weight", "bias"]

def Kernel.allNames : List String := ["kernel", "bias"]

def ScaleShift.allNames : List String := ["gamma", "beta"]

def FeedForwardWeights.allNames : List String :=
  Affine.allNames.map ("linear1" ++ "_" ++ ·) ++ Affine.allNames.map ("linear2" ++ "_" ++ ·)

def AttentionWeights.allNames : List String :=
  Affine.allNames.map ("query" ++ "_" ++ ·) ++ Affine.allNames.map ("key" ++ "_" ++ ·)
    ++ Affine.allNames.map ("value" ++ "_" ++ ·) ++ Affine.allNames.map ("output" ++ "_" ++ ·)

def BlockWeights.allNames : List String :=
  AttentionWeights.allNames.map ("attention" ++ "_" ++ ·) ++ ScaleShift.allNames.map ("norm1" ++ "_" ++ ·)
    ++ FeedForwardWeights.allNames.map ("ffn" ++ "_" ++ ·) ++ ScaleShift.allNames.map ("norm2" ++ "_" ++ ·)

theorem Affine.sublist_named {m n : Nat} (a : Affine α m n) : (names (Weights.named a)).Sublist allNames :=
  (sublist_namedOption "bias" a.bias).cons_cons _

theorem Kernel.sublist_named {z : ConvSizes} (k : Kernel α z) : (names (Weights.named k)).Sublist allNames :=
  (sublist_namedOption "bias" k.bias).cons_cons _

theorem ScaleShift.sublist_named {s : Dims} (p : ScaleShift α s) : (names (Weights.named p)).Sublist allNames :=
  sublist_append (sublist_namedOption "gamma" p.gamma) (sublist_namedOption "beta" p.beta)

theorem FeedForwardWeights.sublist_named {d f : Nat} (w : FeedForwardWeights α d f) :
    (names (Weights.named w)).Sublist allNames :=
  sublist_append (sublist_withPrefix _ w.linear1.sublist_named) (sublist_withPrefix _ w.linear2.sublist_named)

theorem AttentionWeights.sublist_named {d h k v : Nat} (w : AttentionWeights α d h k v) :
    (names (Weights.named w)).Sublist allNames := by
  have hquery := sublist_withPrefix "query" w.query.sublist_named
  have hkey := sublist_withPrefix "key" w.key.sublist_named
  have hvalue := sublist_withPrefix "value" w.value.sublist_named
  have houtput := sublist_withPrefix "output" w.output.sublist_named
  exact sublist_append (sublist_append (sublist_append hquery hkey) hvalue) houtput

theorem BlockWeights.sublist_named {d h k f : Nat} (w : BlockWeights α d h k f) :
    (names (Weights.named w)).Sublist allNames := by
  have hattention := sublist_withPrefix "attention" w.attention.sublist_named
  have hnorm1 := sublist_withPrefix "norm1" w.norm1.sublist_named
  have hffn := sublist_withPrefix "ffn" w.feedForward.sublist_named
  have hnorm2 := sublist_withPrefix "norm2" w.norm2.sublist_named
  exact sublist_append (sublist_append (sublist_append hattention hnorm1) hffn) hnorm2

theorem BlockWeights.nodup_named {d h k f : Nat} (w : BlockWeights α d h k f) : (names (Weights.named w)).Nodup :=
  w.sublist_named.nodup (by decide)

/-- No two parameters of an operator have the same name. -/
theorem Operator.nodup_parameters (o : Operator α) : (names o.parameters).Nodup := by
  cases o with
  | dense cell => exact cell.layer.map.sublist_named.nodup (by decide)
  | conv2d cell => exact cell.layer.kernel.sublist_named.nodup (by decide)
  | layerNorm cell => exact cell.layer.weights.sublist_named.nodup (by decide)
  | embedding cell =>
      simp only [parameters]
      split
      · exact List.pairwise_singleton _ _
      · exact List.nodup_nil
  | positions cell =>
      simp only [parameters]
      split
      · exact List.pairwise_singleton _ _
      · exact List.nodup_nil
  | attention cell => exact cell.layer.weights.sublist_named.nodup (by decide)
  | feedForward cell => exact cell.layer.weights.sublist_named.nodup (by decide)
  | transformerBlock cell => exact cell.layer.weights.nodup_named
  | maxPool2D | dropout | flatten | average | undefined => exact List.nodup_nil

end LayerStack
