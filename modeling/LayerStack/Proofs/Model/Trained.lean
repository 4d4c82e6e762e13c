import LayerStack.Proofs.Model.Gradients
import LayerStack.Proofs.Model.Owned
import LayerStack.Proofs.Optimizer
import Mathlib.Logic.Relation

/-!
# LayerStack.Proofs.Model.Trained

What training does to a model, and what it leaves alone.

Passes forward and back leave every tensor of every operator as it is (`Passed`).  New values from a step of an optimizer
reach the parameters and nothing else: frozen weights and constants stay, and parameters stay under their names and on
their axes (`Trained`, `trained_setParameters`).
-/

namespace LayerStack

variable {α : Type}

namespace Model

open NamedTensors

variable {m m' m'' : Model α}

/-! ## Passes -/

/-- A model that is another one after some passes: nothing has become of its tensors. -/
structure Passed (m m' : Model α) : Prop where
  plan : m'.plan = m.plan
  disposed : m'.disposed = m.disposed
  sorts : m'.operators.map Operator.sorts = m.operators.map Operator.sorts

theorem Passed.refl (m : Model α) : Passed m m := ⟨rfl, rfl, rfl⟩

theorem Passed.trans (h : Passed m m') (h' : Passed m' m'') : Passed m m'' :=
  ⟨h'.plan.trans h.plan, h'.disposed.trans h.disposed, h'.sorts.trans h.sorts⟩

/-- The tensors of one sort are those they were. -/
theorem Passed.map_eq (h : Passed m m') {β : Type} (sort : NamedTensors α × NamedTensors α × NamedTensors α → β) :
    m'.operators.map (fun o => sort o.sorts) = m.operators.map fun o => sort o.sorts := by
  have hsort := congrArg (List.map sort) h.sorts
  simpa only [List.map_map, Function.comp_def] using hsort

theorem Passed.parameters (h : Passed m m') : m'.operators.map Operator.parameters = m.operators.map Operator.parameters :=
  h.map_eq (·.1)

theorem Passed.collect_parameters (h : Passed m m') :
    m'.collect Operator.parameters = m.collect Operator.parameters := by
  rw [collect_eq, collect_eq, h.plan, h.parameters]

theorem passed_forward [Scalar α] (m : Model α) (training : Bool) (x : AnyTensor α) (stream : Stream) :
    Passed m (m.forward training x stream).1.2 := by
  have hkeeps := keeps_forward m training x stream
  exact ⟨hkeeps.plan, hkeeps.disposed, map_forward (fun o x stream => o.sorts_forward training x stream) m x stream⟩

theorem passed_backward [Scalar α] (m : Model α) (g : AnyTensor α) : Passed m (m.backward g).2 := by
  have hkeeps := keeps_backward m g
  exact ⟨hkeeps.plan, hkeeps.disposed, map_backward (fun o g => o.sorts_backward g) m g⟩

/-! ## Changes -/

/-- Pairs of which the second members are changed along with the first ones. -/
theorem zip_map_zip {β γ δ : Type} (f : β → γ → δ) (l : List β) (r : List γ) :
    l.zip ((l.zip r).map fun (b, c) => f b c) = (l.zip r).map fun (b, c) => (b, f b c) := by
  induction l generalizing r with
  | nil => rfl
  | cons b l ih =>
      cases r with
      | nil => rfl
      | cons c r => simp [ih]

/-- The parameters of a model change under their full names. -/
theorem collect_change (f : TensorChange α) (m : Model α) :
    (m.change f).collect Operator.parameters = changed f (m.collect Operator.parameters) := by
  rw [collect, change]
  dsimp only
  rw [zip_map_zip fun layer (o : Operator α) => o.change (f.under (tensorPrefix layer))]
  simp only [List.flatMap_map, Operator.parameters_change, withPrefix_changed]
  rw [collect, changed, List.map_flatMap]
  rfl

/-! ## Steps -/

variable [Scalar α]

/-- The parameters that a step of some optimizer along some gradients makes of some others. -/
def Descends (parameters parameters' : NamedTensors α) : Prop :=
  ∃ (o : Optimizer α) (gradients : List (String × Option (AnyTensor α))),
    parameters' = (o.step gradients none parameters).2.1

/-- A model that is another one after some training: only its parameters have changed, they are as steps of optimizers
have made them, and they have the names and axes they had. -/
structure Trained (m m' : Model α) : Prop where
  plan : m'.plan = m.plan
  disposed : m'.disposed = m.disposed
  frozen : m'.operators.map Operator.frozen = m.operators.map Operator.frozen
  constants : m'.operators.map Operator.constants = m.operators.map Operator.constants
  axes : axes (m'.collect Operator.parameters) = axes (m.collect Operator.parameters)
  descent : Relation.ReflTransGen Descends (m.collect Operator.parameters) (m'.collect Operator.parameters)

theorem Passed.trained (h : Passed m m') : Trained m m' where
  plan := h.plan
  disposed := h.disposed
  frozen := h.map_eq (·.2.1)
  constants := h.map_eq (·.2.2)
  axes := by rw [h.collect_parameters]
  descent := by rw [h.collect_parameters]

theorem Trained.trans (h : Trained m m') (h' : Trained m' m'') : Trained m m'' where
  plan := h'.plan.trans h.plan
  disposed := h'.disposed.trans h.disposed
  frozen := h'.frozen.trans h.frozen
  constants := h'.constants.trans h.constants
  axes := h'.axes.trans h.axes
  descent := h.descent.trans h'.descent

omit [Scalar α] in
/-- What a change does not reach in an operator it does not reach in a model. -/
theorem Made.map_change (h : m.Made) {β : Type} {keep : Operator α → β}
    (hkeep : ∀ (o : Operator α) (f : TensorChange α), keep (o.change f) = keep o) (f : TensorChange α) :
    (m.change f).operators.map keep = m.operators.map keep :=
  Chain.map_change hkeep (fun layer => f.under (tensorPrefix layer)) h.operators.length_eq.symm

/-- The parameters of a model after a step of an optimizer are those that the step made. -/
theorem Made.collect_setParameters (h : m.Made) (o : Optimizer α) (gradients : List (String × Option (AnyTensor α))) :
    (m.setParameters (o.step gradients none (m.collect Operator.parameters)).2.1).collect Operator.parameters =
      (o.step gradients none (m.collect Operator.parameters)).2.1 := by
  have hnodup := (nodup_names h.chained m.operators).1
  rw [setParameters, collect_change]
  exact TensorChange.changed_ofValues (o.axes_step gradients none hnodup) hnodup

theorem Made.trained_setParameters (h : m.Made) (o : Optimizer α) (gradients : List (String × Option (AnyTensor α))) :
    Trained m (m.setParameters (o.step gradients none (m.collect Operator.parameters)).2.1) where
  plan := rfl
  disposed := rfl
  frozen := h.map_change (fun o f => o.frozen_change f) _
  constants := h.map_change (fun o f => o.constants_change f) _
  axes := by
    rw [h.collect_setParameters]
    exact o.axes_step gradients none (nodup_names h.chained m.operators).1
  descent := .single ⟨o, gradients, h.collect_setParameters o gradients⟩

end Model

end LayerStack
