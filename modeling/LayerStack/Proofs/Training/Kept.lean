import LayerStack.Proofs.Attempt
import LayerStack.Training.Run

/-!
# LayerStack.Proofs.Training.Kept

What operations on a trainer keep.

A relation is kept by predictions where it is kept by passes forward and by the log (`Predicting`), by steps where it is
also kept by ways back and by moved parameters (`Stepping`), and by whole runs where it is also kept by what is noted of a
run (`Running`).
-/

namespace LayerStack

namespace Trainer

open Attempt

variable {α β : Type} {T : Trainer α → Trainer α → Prop}

/-! ## Parts -/

/-- What is run in the session ends as it does there. -/
theorem attempt_eq_ok {act : StateM (Session α) (Except RunError β)} {t t' : Trainer α} {b : β} :
    attempt act t = (.ok b, t') ↔ (act t.session).1 = .ok b ∧ t' = { t with session := (act t.session).2 } := by
  have hrun : attempt act t = ((act t.session).1.mapError .run, { t with session := (act t.session).2 }) := rfl
  rw [hrun, Prod.mk.injEq, mapError_eq_ok, eq_comm (a := t')]

theorem perform_eq_ok {act : StateM (Session α) β} {t t' : Trainer α} {b : β} :
    perform act t = (.ok b, t') ↔ inSession act t = (b, t') := by
  have hrun : perform act t = (.ok (inSession act t).1, (inSession act t).2) := rfl
  rw [hrun, Prod.mk.injEq, Except.ok.injEq, Prod.ext_iff]

theorem outcome_eq_ok {result : Except RunError β} {t t' : Trainer α} {b : β} :
    outcome result t = (.ok b, t') ↔ result = .ok b ∧ t' = t := by
  have hrun : outcome result t = (result.mapError .run, t) := rfl
  rw [hrun, Prod.mk.injEq, mapError_eq_ok, eq_comm (a := t')]

/-! ## Relations that are kept -/

/-- A relation that is kept by what a prediction does to a trainer. -/
structure Predicting [Scalar α] (T : Trainer α → Trainer α → Prop) : Prop where
  refl : ∀ t, T t t
  trans : ∀ {t t' t''}, T t t' → T t' t'' → T t t''
  told : ∀ t log, T t { t with session := { t.session with log } }
  drawn : ∀ t stream, T t { t with session := { t.session with stream } }
  pass : ∀ t id training x,
    T t { t with session := (Session.visit id (Model.forward training x) t.session).2 }

/-- A relation that is kept by what passes forward and back do to a trainer. -/
structure Passing [Scalar α] (T : Trainer α → Trainer α → Prop) : Prop extends Predicting T where
  wayBack : ∀ t id g,
    T t { t with session := (Session.visit id (fun m => pure (m.backward g)) t.session).2 }
  asked : ∀ {β : Type} t id (question : Model α → Except RunError β),
    T t { t with session := (Session.ask id question t.session).2 }

/-- A model is asked for its parameters, and they are moved as an optimizer moves them. -/
def Moves [Scalar α] (id : Identity) (o : Optimizer α) (t t' : Trainer α) : Prop :=
  ∃ gradients parameters, (Session.ask id Model.parameters t.session).1 = .ok parameters ∧
    t' = { t with
      session := (Session.visit id
        (fun m => pure ((Except.ok () : Except RunError Unit), m.setParameters (o.step gradients none parameters).2.1))
        (Session.ask id Model.parameters t.session).2).2 }

/-- A relation that is kept by what a step of training does to a trainer. -/
structure Stepping [Scalar α] (T : Trainer α → Trainer α → Prop) : Prop extends Passing T where
  moved : ∀ {t t'} id o, Moves id o t t' → T t t'

/-- A relation that is kept by what a run of training does to a trainer. -/
structure Running [Scalar α] (T : Trainer α → Trainer α → Prop) : Prop extends Stepping T where
  noted : ∀ t stopRequested training, T t { t with stopRequested, training }

theorem keeps_outcome (hrefl : ∀ t, T t t) (result : Except RunError β) : Keeps T (outcome result) := hrefl

theorem keeps_attempt {act : StateM (Session α) (Except RunError β)}
    (h : ∀ t, T t { t with session := (act t.session).2 }) : Keeps T (attempt act) := h

theorem keeps_perform {act : StateM (Session α) β} (h : ∀ t, T t { t with session := (act t.session).2 }) :
    Keeps T (perform act) := h

theorem keeps_requireModel (hrefl : ∀ t, T t t) : Keeps T requireModel := by
  intro t
  rw [requireModel, Attempt.run_bind, Attempt.run_get]
  cases hmodel : t.compiler.model with
  | none | some id =>
      simp only [hmodel]
      exact hrefl t

variable [Scalar α]

namespace Predicting

variable (h : Predicting T)

include h

theorem keeps_tell (entry : LogEntry) : Keeps T (tell entry) := keeps_perform fun t => h.told t _

theorem keeps_report (entry : LogEntry) : Keeps T (attempt (Session.report entry)) := by
  refine keeps_attempt fun t => ?_
  rw [Session.report]
  split
  · exact h.refl t
  · exact h.told t _

theorem keeps_draw (d : Draw β) : Keeps T (perform (Session.draw d)) := keeps_perform fun t => h.drawn t _

theorem keeps_forward (id : Identity) (training : Bool) (x : AnyTensor α) :
    Keeps T (attempt (Session.visit id (Model.forward training x))) := keeps_attempt fun t => h.pass t id training x

theorem keeps_predict (x : AnyTensor α) : Keeps T (predict x) :=
  keeps_bind h.trans (keeps_requireModel h.refl) fun id => h.keeps_forward id false x

theorem keeps_evaluateBatches (id : Identity) (loss : Loss) (batches : List (LabelledSamples α)) (tally : Tally α) :
    Keeps T (evaluateBatches id loss batches tally) := by
  induction batches generalizing tally with
  | nil => exact keeps_pure h.refl tally
  | cons batch batches ih =>
      rw [evaluateBatches]
      refine keeps_bind h.trans (h.keeps_forward id false batch.inputs.toTensor) fun predictions => ?_
      exact keeps_bind h.trans (keeps_outcome h.refl _) fun m => ih _

theorem keeps_evaluateOn (id : Identity) (samples : LabelledSamples α) (loss : Loss) (batchSize : Value) :
    Keeps T (evaluateOn id samples loss batchSize) := by
  rw [evaluateOn]
  refine keeps_bind h.trans (keeps_outcome h.refl _) fun loader => ?_
  refine keeps_bind h.trans (h.keeps_draw _) fun batches => ?_
  refine keeps_bind h.trans (h.keeps_evaluateBatches id loss batches _) fun tally => ?_
  split
  · exact keeps_throw h.refl _
  · exact keeps_pure h.refl _

theorem keeps_evaluate (inputs labels : AnyTensor α) (loss batchSize : Value) :
    Keeps T (evaluate inputs labels loss batchSize) := by
  rw [evaluate]
  refine keeps_bind h.trans (keeps_requireModel h.refl) fun id => ?_
  refine keeps_bind h.trans (keeps_outcome h.refl _) fun loss => ?_
  exact keeps_bind h.trans (keeps_outcome h.refl _) fun samples => h.keeps_evaluateOn id samples loss batchSize

end Predicting

namespace Passing

variable (h : Passing T)

include h

theorem keeps_ask (id : Identity) (question : Model α → Except RunError β) :
    Keeps T (attempt (Session.ask id question)) := keeps_attempt fun t => h.asked t id question

/-- A step passes a batch forward and back.  If all goes well its optimizer moves the parameters then, and that is the
end of it. -/
theorem step_cases (run : TrainingRun α) (batch : LabelledSamples α) :
    Keeps (fun t t' => T t t' ∨ ∃ t'', T t t'' ∧ Moves run.model run.optimizer t'' t') (step run batch) := by
  let Q (t t' : Trainer α) : Prop := T t t' ∨ ∃ t'', T t t'' ∧ Moves run.model run.optimizer t'' t'
  have hstop {t t'} (hpassed : T t t') : Q t t' := .inl hpassed
  have hgo {t t' t''} (hpassed : T t t') (hend : Q t' t'') : Q t t'' := by
    rcases hend with hend | ⟨u, hend, hmoves⟩
    · exact .inl (h.trans hpassed hend)
    · exact .inr ⟨u, h.trans hpassed hend, hmoves⟩
  rw [step]
  refine keeps_bind_of hstop hgo (h.keeps_forward run.model true _) fun predictions => ?_
  refine keeps_bind_of hstop hgo (keeps_outcome h.refl _) fun m => ?_
  refine keeps_bind_of hstop hgo (keeps_outcome h.refl _) fun gradient => ?_
  refine keeps_bind_of hstop hgo
    (keeps_discard h.refl h.trans (keeps_attempt fun t => h.wayBack t run.model gradient)) fun _ => ?_
  refine keeps_bind_of hstop hgo (h.keeps_ask run.model Model.gradients) fun gradients => ?_
  have hasks {t t' : Trainer α} {result : Except Failure (NamedTensors α)}
      (hasked : attempt (Session.ask run.model Model.parameters) t = (result, t')) : T t t' :=
    (h.keeps_ask run.model Model.parameters).of_eq hasked
  refine keeps_bind_run (fun t e t' hasked => hstop (hasks hasked)) fun t parameters t' hasked => ?_
  cases hclipped : GradientNorm.clipTo run.config.maxGradNorm gradients with
  | error e => exact hstop (hasks hasked)
  | ok clipped =>
      let act : StateM (Session α) (Except RunError Unit) := Session.visit run.model fun m =>
        pure (.ok (), m.setParameters (run.optimizer.step clipped none parameters).2.1)
      -- the outcome of the optimizer comes too late to undo anything
      have hrest : Keeps Eq (outcome (run.optimizer.step clipped none parameters).1 >>= fun _ =>
          pure (m, { run with
            optimizer := (run.optimizer.step clipped none parameters).2.2, steps := run.steps + 1 }) :
          Attempt (Trainer α) (Metrics α × TrainingRun α)) :=
        keeps_bind_eq (keeps_outcome (fun _ => rfl) _) fun _ => keeps_pure (fun _ => rfl) _
      have hend := keeps_bind_eq (T := fun t t' => t' = { t with session := (act t.session).2 })
        (keeps_attempt fun _ => rfl) fun _ : Unit => hrest
      obtain ⟨hparameters, ht'⟩ := attempt_eq_ok.mp hasked
      refine .inr ⟨t, h.refl t, clipped, parameters, hparameters, (hend t').trans ?_⟩
      rw [ht']
      rfl

end Passing

namespace Stepping

variable (h : Stepping T)

include h

theorem keeps_step (run : TrainingRun α) (batch : LabelledSamples α) : Keeps T (step run batch) := by
  intro t
  rcases h.step_cases run batch t with hpassed | ⟨t', hpassed, hmoves⟩
  · exact hpassed
  · exact h.trans hpassed (h.moved _ _ hmoves)

theorem keeps_openOptimizer (config : TrainingConfig) (id : Identity) : Keeps T (openOptimizer config id) := by
  rw [openOptimizer]
  refine keeps_bind h.trans (h.keeps_report _) fun _ => ?_
  refine keeps_bind h.trans (keeps_outcome h.refl _) fun o => ?_
  exact keeps_bind h.trans (h.keeps_ask id Model.parameters) fun parameters => keeps_pure h.refl _

end Stepping

namespace Running

variable (h : Running T)

include h

theorem keeps_stopIf (now : Bool) : Keeps T (stopIf now) := by
  cases now with
  | false => exact keeps_pure h.refl _
  | true => exact fun t => h.noted t true t.training

theorem keeps_begin (request : TrainingRequest α) : Keeps T (begin request) := by
  rw [begin]
  refine keeps_bind h.trans (keeps_requireModel h.refl) fun id => ?_
  refine keeps_bind h.trans (keeps_outcome h.refl _) fun samples => ?_
  refine keeps_bind h.trans (keeps_outcome h.refl _) fun given => ?_
  rcases request.config.divide samples given with ⟨training, heldOut⟩
  have hopen := h.keeps_openOptimizer request.config id
  dsimp only
  split
  · rw [throw_bind]
    exact keeps_throw h.refl _
  · refine keeps_bind h.trans hopen fun optimizer => ?_
    refine keeps_bind h.trans (keeps_outcome h.refl _) fun loader => ?_
    refine keeps_bind h.trans (keeps_outcome h.refl _) fun epochs => ?_
    exact keeps_bind h.trans (fun t => h.noted t false true) fun _ => keeps_pure h.refl _

theorem keeps_runBatches (signals : StopSignals) (batches : List (LabelledSamples α)) (run : TrainingRun α)
    (tally : Tally α) : Keeps T (runBatches signals batches run tally) := by
  induction batches generalizing run tally with
  | nil => exact keeps_pure h.refl _
  | cons batch batches ih =>
      rw [runBatches]
      refine keeps_bind h.trans (keeps_get h.refl) fun t => ?_
      split
      · exact keeps_pure h.refl _
      · refine keeps_bind h.trans (h.keeps_step run batch) fun (m, run') => ?_
        exact keeps_bind h.trans (h.keeps_stopIf _) fun _ => ih run' _

theorem keeps_validate (signals : StopSignals) (run : TrainingRun α) (epoch : Nat) :
    Keeps T (validate signals run epoch) := by
  rw [validate]
  cases run.validation with
  | none => exact keeps_pure h.refl _
  | some samples =>
      refine keeps_bind h.trans (keeps_requireModel h.refl) fun id => ?_
      refine keeps_bind h.trans (h.keeps_evaluateOn id samples _ _) fun m => ?_
      exact keeps_bind h.trans (h.keeps_stopIf _) fun _ => keeps_pure h.refl _

theorem keeps_runEpoch (signals : StopSignals) (run : TrainingRun α) : Keeps T (runEpoch signals run) := by
  rw [runEpoch]
  refine keeps_bind h.trans (h.keeps_draw _) fun batches => ?_
  refine keeps_bind h.trans (h.keeps_runBatches signals batches run _) fun (run', tally) => ?_
  dsimp only
  split
  · exact keeps_pure h.refl _
  · refine keeps_bind h.trans (h.keeps_validate signals run' _) fun validation => ?_
    exact keeps_bind h.trans (h.keeps_tell _) fun _ => keeps_pure h.refl _

theorem keeps_finish (steps : Nat) : Keeps T (finish steps : Attempt (Trainer α) (Option (EpochEnd α) × Progress α)) := by
  rw [finish]
  refine keeps_bind h.trans (fun t => h.noted t t.stopRequested false) fun _ => ?_
  refine keeps_bind h.trans (keeps_get h.refl) fun t => ?_
  split
  · exact keeps_bind h.trans (h.keeps_tell _) fun _ => keeps_pure h.refl _
  · exact keeps_pure h.refl _

theorem keeps_advance (signals : StopSignals) (run : TrainingRun α) : Keeps T (advance signals run) := by
  rw [advance]
  split
  · have hfailed (e : Failure) : Keeps T (do modify fun t => { t with training := false }; throw e :
        Attempt (Trainer α) (Option (EpochEnd α) × TrainingRun α)) :=
      keeps_bind h.trans (fun t => h.noted t t.stopRequested false) fun _ => keeps_throw h.refl e
    have hepoch := keeps_tryCatch (T := T) h.trans (h.keeps_runEpoch signals run) hfailed
    refine keeps_bind h.trans hepoch fun (event, run') => ?_
    cases event with
    | none => exact h.keeps_finish _
    | some event => exact keeps_pure h.refl _
  · exact h.keeps_finish _

theorem keeps_next (signals : StopSignals) (p : Progress α) : Keeps T (next signals p) := by
  cases p with
  | waiting request => exact keeps_bind h.trans (h.keeps_begin request) fun run => h.keeps_advance signals run
  | paused run =>
      refine keeps_bind h.trans (keeps_get h.refl) fun t => ?_
      split
      · exact h.keeps_finish _
      · exact h.keeps_advance signals run
  | ended steps => exact keeps_pure h.refl _

theorem keeps_drive (signals : StopSignals) (fuel : Nat) (p : Progress α) : Keeps T (drive signals fuel p) := by
  induction fuel generalizing p with
  | zero => exact keeps_pure h.refl _
  | succ fuel ih =>
      rw [drive]
      refine keeps_bind h.trans (h.keeps_next signals p) fun (event, p') => ?_
      cases event with
      | none => exact keeps_pure h.refl _
      | some event =>
          refine keeps_bind h.trans (h.keeps_stopIf _) fun _ => ?_
          exact keeps_bind h.trans (ih p') fun _ => keeps_pure h.refl _

/-- A whole run is begun, and then goes on epoch by epoch. -/
theorem keeps_fit (signals : StopSignals) (request : TrainingRequest α) : Keeps T (fit signals request) := by
  rw [fit]
  refine keeps_bind h.trans (h.keeps_drive signals _ _) fun (events, p) => ?_
  exact keeps_bind h.trans (keeps_get h.refl) fun t => keeps_pure h.refl _

end Running

end Trainer

end LayerStack
