import LayerStack.Proofs.Model.Trained
import LayerStack.Proofs.Session.Step
import LayerStack.Proofs.Training.Kept
import LayerStack.Scalar.Machine

/-!
# LayerStack.Proofs.Training.Exercise

What becomes of a compiled model while it is run and trained.

A model is passed through forward and back, asked for predictions, evaluated, taken through single steps and through whole
runs, along with other models of its session, in any order and whether that succeeds or not.  None of it touches the
tables that are not trained, and parameters are what steps of optimizers have made them (`after_exercises`).
-/

namespace LayerStack

variable {α β : Type}

open NamedTensors Attempt

namespace Session

variable {R : Model α → Model α → Prop} {s s' : Session α} {id : Identity}

/-- Every model is still there, and is what it may have become. -/
def Carries (R : Model α → Model α → Prop) (s s' : Session α) : Prop :=
  ∀ id m, s.model? id = some m → ∃ m', s'.model? id = some m' ∧ R m m'

/-- The models are those that were there. -/
theorem carries_of_models (hrefl : ∀ m, R m m) (h : s'.models = s.models) : Carries R s s' := by
  intro id m hm
  exact ⟨m, by rw [model?, h]; exact hm, hrefl m⟩

theorem Carries.trans (htrans : ∀ {m m' m''}, R m m' → R m' m'' → R m m'') {s'' : Session α} (h : Carries R s s')
    (h' : Carries R s' s'') : Carries R s s'' := by
  intro id m hm
  obtain ⟨m', hm', hfirst⟩ := h id m hm
  obtain ⟨m'', hm'', hsecond⟩ := h' id m' hm'
  exact ⟨m'', hm'', htrans hfirst hsecond⟩

/-- What is run on a model ends with that model, and with the others as they were. -/
theorem model?_visit (run : Model α → Draw (Except RunError β × Model α)) {m : Model α} (hm : s.model? id = some m) :
    (visit id run s).2.model? id = some (run m s.stream).1.2 ∧
      ∀ id' ≠ id, (visit id run s).2.model? id' = s.model? id' := by
  simp only [visit, hm]
  exact ⟨lookup_replace_self hm, fun id' hid => lookup_replace_of_ne hid⟩

theorem carries_visit {run : Model α → Draw (Except RunError β × Model α)} (hrefl : ∀ m, R m m)
    (hrun : ∀ m stream, R m (run m stream).1.2) : Carries R s (visit id run s).2 := by
  cases hmodel : s.model? id with
  | none =>
      simp only [visit, hmodel]
      exact carries_of_models hrefl rfl
  | some m₀ =>
      obtain ⟨hself, hothers⟩ := model?_visit run hmodel
      intro id' m hm
      by_cases hid : id' = id
      · subst hid
        obtain rfl : m₀ = m := Option.some.inj (hmodel.symm.trans hm)
        exact ⟨_, hself, hrun m₀ s.stream⟩
      · exact ⟨m, (hothers id' hid).trans hm, hrefl m⟩

end Session

namespace Trainer

open Session

variable [Scalar α] {t t' : Trainer α} {id : Identity} {m m' : Model α}

/-! ## What models become -/

/-- Parameters that are moved are there, and become what the step of the optimizer makes of them. -/
theorem Moves.model? {o : Optimizer α} (h : Moves id o t t') :
    (∃ m gradients, t.session.model? id = some m ∧
      t'.session.model? id = some (m.setParameters (o.step gradients none (m.collect Operator.parameters)).2.1)) ∧
      ∀ id' ≠ id, t'.session.model? id' = t.session.model? id' := by
  obtain ⟨gradients, parameters, hasked, rfl⟩ := h
  cases hm : t.session.model? id with
  | none =>
      simp only [ask, visit, hm] at hasked
      contradiction
  | some m =>
      obtain ⟨hself, hothers⟩ := model?_visit (fun m => pure (m.parameters, m)) hm
      obtain ⟨hself', hothers'⟩ := model?_visit (fun m =>
        pure ((Except.ok () : Except RunError Unit), m.setParameters (o.step gradients none parameters).2.1)) hself
      have hparameters : m.parameters = .ok parameters := by
        simp only [ask, visit, hm] at hasked
        exact hasked
      obtain ⟨live, hlive, rfl⟩ := map_eq_ok.mp hparameters
      obtain rfl : m = live := by
        unfold Model.live at hlive
        split at hlive
        · contradiction
        · exact Except.ok.inj hlive
      exact ⟨⟨m, gradients, rfl, hself'⟩, fun id' hid => (hothers' id' hid).trans (hothers id' hid)⟩

/-- A made model that was passed through is still one, with the tensors it had. -/
structure Passes (m m' : Model α) : Prop where
  made : m.Made → m'.Made
  passed : Model.Passed m m'

omit [Scalar α] in
theorem Passes.refl (m : Model α) : Passes m m := ⟨id, .refl m⟩

omit [Scalar α] in
theorem Passes.trans {m m' m'' : Model α} (h : Passes m m') (h' : Passes m' m'') : Passes m m'' :=
  ⟨h'.made ∘ h.made, h.passed.trans h'.passed⟩

/-- A made model that was trained is still one. -/
def Trains (m m' : Model α) : Prop := m.Made → m'.Made ∧ Model.Trained m m'

theorem Trains.refl (m : Model α) : Trains m m := fun hmade => ⟨hmade, (Model.Passed.refl m).trained⟩

theorem Trains.trans {m m' m'' : Model α} (h : Trains m m') (h' : Trains m' m'') : Trains m m'' := by
  intro hmade
  obtain ⟨hmade', htrained⟩ := h hmade
  obtain ⟨hmade'', htrained'⟩ := h' hmade'
  exact ⟨hmade'', htrained.trans htrained'⟩

theorem passes_forward (m : Model α) (training : Bool) (x : AnyTensor α) (stream : Stream) :
    Passes m (m.forward training x stream).1.2 :=
  ⟨fun hmade => (hmade.forward training x stream).2, m.passed_forward training x stream⟩

theorem passes_backward (m : Model α) (g : AnyTensor α) : Passes m (m.backward g).2 :=
  ⟨fun hmade => (hmade.backward g).2, m.passed_backward g⟩

theorem Passes.trains (h : Passes m m') : Trains m m' := fun hmade => ⟨h.made hmade, h.passed.trained⟩

/-- Passes leave every tensor of every model as it is. -/
theorem passing_carries : Passing (fun t t' : Trainer α => Carries Passes t.session t'.session) where
  refl _ := carries_of_models Passes.refl rfl
  trans := Carries.trans (R := Passes) Passes.trans
  told _ _ := carries_of_models Passes.refl rfl
  drawn _ _ := carries_of_models Passes.refl rfl
  pass _ _ training x := carries_visit Passes.refl fun m stream => passes_forward m training x stream
  wayBack _ _ g := carries_visit Passes.refl fun m _ => passes_backward m g
  asked _ _ _ := carries_visit Passes.refl fun m _ => Passes.refl m

/-- Training trains the models there are. -/
theorem running_carries : Running (fun t t' : Trainer α => Carries Trains t.session t'.session) where
  refl _ := carries_of_models Trains.refl rfl
  trans := Carries.trans (R := Trains) Trains.trans
  told _ _ := carries_of_models Trains.refl rfl
  drawn _ _ := carries_of_models Trains.refl rfl
  pass _ _ training x := carries_visit Trains.refl fun m stream => (passes_forward m training x stream).trains
  wayBack _ _ g := carries_visit Trains.refl fun m _ => (passes_backward m g).trains
  asked _ _ _ := carries_visit Trains.refl fun m _ => Trains.refl m
  moved {t t'} id o hmoves := by
    obtain ⟨⟨m₀, gradients, hm₀, hself⟩, hothers⟩ := hmoves.model?
    intro id' m hm
    by_cases hid : id' = id
    · subst hid
      obtain rfl : m₀ = m := Option.some.inj (hm₀.symm.trans hm)
      exact ⟨_, hself, fun hmade => ⟨(hmade.change _).2, hmade.trained_setParameters o gradients⟩⟩
    · exact ⟨m, (hothers id' hid).trans hm, Trains.refl m⟩
  noted _ _ _ := carries_of_models Trains.refl rfl

/-! ## Exercises -/

omit [Scalar α] in
/-- What is done with the models of a trainer. -/
inductive Exercise (α : Type) where
  | forward (id : Identity) (training : Bool) (x : AnyTensor α)
  | backward (id : Identity) (g : AnyTensor α)
  | predict (x : AnyTensor α)
  | evaluate (inputs labels : AnyTensor α) (loss batchSize : Value)
  | step (run : TrainingRun α) (batch : LabelledSamples α)
  | fit (signals : StopSignals) (request : TrainingRequest α)

/-- A trainer after an exercise, whatever came of it. -/
def exercise (t : Trainer α) : Exercise α → Trainer α
  | .forward id training x => (attempt (Session.visit id (Model.forward training x)) t).2
  | .backward id g => (attempt (Session.visit id fun m => pure (m.backward g)) t).2
  | .predict x => (predict x t).2
  | .evaluate inputs labels loss batchSize => (evaluate inputs labels loss batchSize t).2
  | .step run batch => (step run batch t).2
  | .fit signals request => (fit signals request t).2

/-- Is it a prediction, an evaluation, or a pass forward or back? -/
def Exercise.isPass : Exercise α → Bool
  | .forward .. | .backward .. | .predict _ | .evaluate .. => true
  | .step .. | .fit .. => false

/-- A trainer after some exercises. -/
def after (t : Trainer α) (exercises : List (Exercise α)) : Trainer α := exercises.foldl exercise t

theorem Running.exercise {T : Trainer α → Trainer α → Prop} (h : Running T) (exercise : Exercise α) (t : Trainer α) :
    T t (t.exercise exercise) := by
  cases exercise with
  | forward id training x => exact h.keeps_forward id training x t
  | backward id g => exact h.wayBack t id g
  | predict x => exact h.keeps_predict x t
  | evaluate inputs labels loss batchSize => exact h.keeps_evaluate inputs labels loss batchSize t
  | step run batch => exact h.keeps_step run batch t
  | fit signals request => exact h.keeps_fit signals request t

theorem Running.exercises {T : Trainer α → Trainer α → Prop} (h : Running T) (exercises : List (Exercise α))
    (t : Trainer α) : T t (t.after exercises) := by
  induction exercises generalizing t with
  | nil => exact h.refl t
  | cons exercise exercises ih => exact h.trans (h.exercise exercise t) (ih (t.exercise exercise))

theorem Passing.exercise {T : Trainer α → Trainer α → Prop} (h : Passing T) {exercise : Exercise α}
    (hpass : exercise.isPass = true) (t : Trainer α) : T t (t.exercise exercise) := by
  cases exercise with
  | forward id training x => exact h.keeps_forward id training x t
  | backward id g => exact h.wayBack t id g
  | predict x => exact h.keeps_predict x t
  | evaluate inputs labels loss batchSize => exact h.keeps_evaluate inputs labels loss batchSize t
  | step | fit => contradiction

/-- A single step leaves all parameters of a model alone, or it is a step of that model and its optimizer makes them. -/
theorem parameters_step (run : TrainingRun α) (batch : LabelledSamples α) (hm : t.session.model? id = some m)
    (hmade : m.Made) : ∃ m', (step run batch t).2.session.model? id = some m' ∧
      (m'.operators.map Operator.parameters = m.operators.map Operator.parameters ∨ id = run.model ∧
        ∃ gradients, m'.collect Operator.parameters =
          (run.optimizer.step gradients none (m.collect Operator.parameters)).2.1) := by
  rcases passing_carries.step_cases run batch t with hpassed | ⟨u, hpassed, hmoves⟩
  · obtain ⟨m', hm', hparameters⟩ := hpassed id m hm
    exact ⟨m', hm', .inl hparameters.passed.parameters⟩
  · obtain ⟨m₁, hm₁, hfirst⟩ := hpassed id m hm
    obtain ⟨⟨m₂, gradients, hm₂, hself⟩, hothers⟩ := hmoves.model?
    by_cases hid : id = run.model
    · subst hid
      obtain rfl : m₂ = m₁ := Option.some.inj (hm₂.symm.trans hm₁)
      have hparameters := (hfirst.made hmade).collect_setParameters run.optimizer gradients
      rw [hfirst.passed.collect_parameters] at hparameters hself
      exact ⟨_, hself, .inr ⟨rfl, gradients, hparameters⟩⟩
    · exact ⟨m₁, (hothers id hid).trans hm₁, .inl hfirst.passed.parameters⟩

/-- Training touches nothing but the trainable parameters.  Whatever was done with a compiled model and with others of its
session, its frozen tables and its constants are those of its compilation, and its parameters have the names and axes they
had then.  Whatever is done next makes parameters only by steps of optimizers: a pass leaves those of every operator
alone, and a single step does so too, or its own optimizer makes them. -/
theorem after_exercises {design : Session.Design} (hcompiled : Session.Compiles design m)
    (hm : t.session.model? id = some m) (exercises : List (Exercise α)) :
    ∃ m', (t.after exercises).session.model? id = some m' ∧
      m'.operators.map Operator.frozen = m.operators.map Operator.frozen ∧
      m'.operators.map Operator.constants = m.operators.map Operator.constants ∧
      axes (m'.collect Operator.parameters) = axes (m.collect Operator.parameters) ∧
      ∀ next : Exercise α, ∃ m'', ((t.after exercises).exercise next).session.model? id = some m'' ∧
        Relation.ReflTransGen Model.Descends (m'.collect Operator.parameters) (m''.collect Operator.parameters) ∧
        (next.isPass → m''.operators.map Operator.parameters = m'.operators.map Operator.parameters) ∧
        (∀ run batch, next = .step run batch →
          m''.operators.map Operator.parameters = m'.operators.map Operator.parameters ∨ id = run.model ∧
            ∃ gradients, m''.collect Operator.parameters =
              (run.optimizer.step gradients none (m'.collect Operator.parameters)).2.1) := by
  obtain ⟨m', hm', htrains⟩ := running_carries.exercises exercises t id m hm
  obtain ⟨hmade, htrained⟩ := htrains (Model.made_of_compiles hcompiled).2
  refine ⟨m', hm', htrained.frozen, htrained.constants, htrained.axes, fun next => ?_⟩
  obtain ⟨m'', hm'', htrains'⟩ := running_carries.exercise next (t.after exercises) id m' hm'
  refine ⟨m'', hm'', (htrains' hmade).2.descent, fun hpass => ?_, ?_⟩
  · obtain ⟨m₁, hm₁, hpasses⟩ := passing_carries.exercise hpass (t.after exercises) id m' hm'
    obtain rfl : m'' = m₁ := Option.some.inj (hm''.symm.trans hm₁)
    exact hpasses.passed.parameters
  · rintro run batch rfl
    obtain ⟨m₁, hm₁, hstep⟩ := parameters_step run batch hm' hmade
    obtain rfl : m'' = m₁ := Option.some.inj (hm''.symm.trans hm₁)
    exact hstep

/-- A design for three tokens: a table that is not trained, a fixed position table, and a dense layer behind their mean. -/
def tabled : Session.Design := .ok [
  { type := "input", params := [(.text "shape", .list [.int 3])] },
  { type := "embedding", params := [
    (.text "vocabSize", .int 5), (.text "embeddingDim", .int 2), (.text "maxLength", .int 3),
    (.text "trainable", .bool false)] },
  { type := "positionalEncoding", params := [(.text "maxLength", .int 3), (.text "encodingType", .text "sinusoidal")] },
  { type := "globalAvgPool1d", params := [] },
  { type := "dense", params := [(.text "units", .int 2)] }]

/-- A table of an embedding that is not trained and a fixed position table outlast a pass, a way back and a whole run. -/
theorem after_exercises_tabled :
    ∃ (t : Trainer Float) (m m' : Model Float),
      let tokens : AnyTensor Float := ⟨[2, 3], Tensor.fill 1 _⟩
      let g : AnyTensor Float := ⟨[2, 2], Tensor.fill 1 _⟩
      let request (config : TrainingConfig) : TrainingRequest Float := { inputs := tokens, labels := g, config }
      Session.Compiles tabled m ∧ t.session.model? 0 = some m ∧
        names (m.collect Operator.frozen) = ["layer_1_embedding_table"] ∧
        names (m.collect Operator.constants) = ["layer_2_encoding_table"] ∧
        ∃ config, TrainingConfig.ofEntries [(.text "epochs", .int 1)] = .ok config ∧
        (t.after [.forward 0 true tokens, .backward 0 g, .fit {} (request config)]).session.model? 0 = some m' ∧
        m'.operators.map Operator.frozen = m.operators.map Operator.frozen ∧
        m'.operators.map Operator.constants = m.operators.map Operator.constants ∧
        axes (m'.collect Operator.parameters) = [("layer_4_weight", [2, 2]), ("layer_4_bias", [2])] := by
  let tokens : AnyTensor Float := ⟨[2, 3], Tensor.fill 1 _⟩
  let g : AnyTensor Float := ⟨[2, 2], Tensor.fill 1 _⟩
  let request (config : TrainingConfig) : TrainingRequest Float := { inputs := tokens, labels := g, config }
  obtain ⟨t, m, hcompiled, hm, hfrozen, hconstants, haxes⟩ : ∃ (t : Trainer Float) (m : Model Float),
      Session.Compiles tabled m ∧ t.session.model? 0 = some m ∧
      names (m.collect Operator.frozen) = ["layer_1_embedding_table"] ∧
      names (m.collect Operator.constants) = ["layer_2_encoding_table"] ∧
      axes (m.collect Operator.parameters) = [("layer_4_weight", [2, 2]), ("layer_4_bias", [2])] :=
    ⟨{ session := (Session.compile tabled (Session.start 7 true)).2, compiler := { state := .compiled, model := some 0 } },
      _, ⟨Session.start 7 true, 0, rfl, rfl, rfl⟩, rfl, rfl, rfl, rfl⟩
  obtain ⟨config, hconfig⟩ : ∃ config, TrainingConfig.ofEntries [(.text "epochs", .int 1)] = .ok config := ⟨_, rfl⟩
  obtain ⟨m', hm', hfrozen', hconstants', haxes', _⟩ := after_exercises hcompiled hm
    [.forward 0 true tokens, .backward 0 g, .fit {} (request config)]
  exact ⟨t, m, m', hcompiled, hm, hfrozen, hconstants, config, hconfig, hm', hfrozen', hconstants', haxes'.trans haxes⟩

end Trainer

end LayerStack
