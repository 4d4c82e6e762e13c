import LayerStack.Proofs.Model.Run
import LayerStack.Proofs.Operator.Owned

/-!
# LayerStack.Proofs.Model.Owned

The tensors a model owns.

What its operators own is counted once, when the model is compiled, and never again.  No move of a model makes that count
wrong: its operators own tensors on the same axes after it (`Keeps`, `keeps_run`).
-/

namespace LayerStack

variable {α : Type}

namespace Model

variable {m m' : Model α}

/-! ## Counts -/

/-- The number of tensors of a model: parameters, frozen weights and constants. -/
def tensorCount (m : Model α) : Nat := (m.operators.map Operator.tensorCount).sum

/-- The number of entries of the tables of a model that are no weights. -/
def constantCount (m : Model α) : Nat := (m.operators.map Operator.constantCount).sum

theorem owned_eq (m : Model α) : m.owned = (m.operators.map Operator.owned).flatten := rfl

theorem length_owned (m : Model α) : m.owned.length = m.tensorCount := by
  rw [owned_eq, List.length_flatten, List.map_map, tensorCount]
  exact congrArg List.sum (List.map_congr_left fun o _ => o.length_owned)

theorem trainable_eq (m : Model α) : m.trainable = (m.operators.map Operator.trainableCount).sum := by
  rw [trainable, List.sum, List.foldr_map]

theorem total_eq (m : Model α) : m.total = (m.operators.map Operator.totalCount).sum := by
  rw [total, List.sum, List.foldr_map]

theorem sum_volume_owned (m : Model α) : (m.owned.map Dims.volume).sum = m.total + m.constantCount := by
  rw [total_eq, constantCount, ← List.sum_map_add, owned_eq, List.map_flatten, List.sum_flatten, List.map_map,
    List.map_map]
  exact congrArg List.sum (List.map_congr_left fun o _ => o.sum_volume_owned)

/-! ## Moves -/

/-- A model that is another one later: of the same plan, disposed of if that was, and with tensors on the same axes. -/
structure Keeps (m m' : Model α) : Prop where
  plan : m'.plan = m.plan
  disposed : m'.disposed = m.disposed
  owned : m'.operators.map Operator.owned = m.operators.map Operator.owned

theorem Keeps.refl (m : Model α) : Keeps m m := ⟨rfl, rfl, rfl⟩

theorem Keeps.length_operators (h : Keeps m m') : m'.operators.length = m.operators.length := by
  have hlength := congrArg List.length h.owned
  rwa [List.length_map, List.length_map] at hlength

theorem Keeps.owned_eq (h : Keeps m m') : m'.owned = m.owned := by
  rw [Model.owned_eq, Model.owned_eq, h.owned]

theorem keeps_change (hlength : m.operators.length = m.plan.layers.length) (f : TensorChange α) :
    Keeps m (m.change f) where
  plan := rfl
  disposed := rfl
  owned := Chain.map_change (fun o f => o.owned_change f) (fun layer => f.under (tensorPrefix layer)) hlength

variable [Scalar α]

theorem untouched_owned : Untouched (Operator.owned : Operator α → List Dims) where
  forward training o x stream := o.owned_forward training x stream
  backward o g := o.owned_backward g
  change o f := o.owned_change f

theorem keeps_forward (m : Model α) (training : Bool) (x : AnyTensor α) (stream : Stream) :
    Keeps m (m.forward training x stream).1.2 := by
  refine ⟨?_, ?_, map_forward (untouched_owned.forward training) m x stream⟩ <;>
    cases hx : m.live.bind fun m => prepare m.plan x <;> simp only [forward, hx] <;> rfl

theorem keeps_backward (m : Model α) (g : AnyTensor α) : Keeps m (m.backward g).2 := by
  refine ⟨?_, ?_, map_backward untouched_owned.backward m g⟩ <;> cases hlive : m.live <;> simp only [backward, hlive]

/-- A move leaves a model with an operator for every layer the tensors it owns. -/
theorem keeps_run (hlength : m.operators.length = m.plan.layers.length) (move : Move α) (stream : Stream) :
    Keeps m (move.run m stream).1 := by
  cases move with
  | forward training x => exact keeps_forward m training x stream
  | backward g => exact keeps_backward m g
  | change f => exact keeps_change hlength f

end Model

end LayerStack
