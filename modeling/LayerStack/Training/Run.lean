import LayerStack.Training.Trainer

/-!
# LayerStack.Training.Run

Training runs: epochs of batches, each batch one step of an optimizer.

A run is taken epoch by epoch.  It can be asked to stop at any time; the request is heard before the next batch, and the
epoch that was cut short still counts if it had a batch.  Samples held out for validation are the last ones, and no step
sees them.
-/

namespace LayerStack

/-- The metrics of a finished epoch, counted from one. -/
structure EpochEnd (α : Type) where
  epoch : Nat
  training : Metrics α
  validation : Option (Metrics α)
deriving Repr

/-- When a run is asked to stop: right after a step, while an epoch is validated, or at the end of an epoch. -/
structure StopSignals where
  afterStep : Nat → Bool := fun _ => false
  inValidation : Nat → Bool := fun _ => false
  atEpochEnd : Nat → Bool := fun _ => false

/-- What a run is to train on. -/
structure TrainingRequest (α : Type) where
  inputs : AnyTensor α
  labels : AnyTensor α
  config : TrainingConfig
  validation : Option (AnyTensor α × AnyTensor α) := none

/-- A run that has begun. -/
structure TrainingRun (α : Type) where
  config : TrainingConfig
  epochs : Nat
  model : Identity
  optimizer : Optimizer α
  loader : Loader α
  validation : Option (LabelledSamples α)
  /-- The epochs that have ended. -/
  epoch : Nat := 0
  /-- The steps that have been taken. -/
  steps : Nat := 0

/-- How far a run has come. -/
inductive Progress (α : Type) where
  | waiting (request : TrainingRequest α)
  | paused (run : TrainingRun α)
  | ended (steps : Nat)

def Progress.steps {α : Type} : Progress α → Nat
  | .waiting _ => 0
  | .paused run => run.steps
  | .ended steps => steps

/-- A run as a whole. -/
structure TrainingHistory (α : Type) where
  events : List (EpochEnd α)
  stoppedEarly : Bool
  steps : Nat
  test : Option (Metrics α) := none

namespace TrainingConfig

/-- The number of epochs, which has to be an integer. -/
def epochCount (c : TrainingConfig) : Except RunError Nat :=
  match c.epochs.quantity? with
  | some (.int n) => .ok n.toNat
  | _ => .error .illTyped

/-- How many of `n` samples are trained on where the rest is held out; `none` where nothing is held out. -/
def heldOutAfter (c : TrainingConfig) (n : Nat) : Option Nat := do
  let split ← c.validationSplit.quantity?
  if Number.lt (.int 0) split then
    let kept ← (split.complement.share n).truncate?
    if 0 < kept ∧ kept < n then some kept.toNat else none
  else none

/-- The samples to train on and those to validate on. -/
def divide {α : Type} (c : TrainingConfig) (samples : LabelledSamples α) (validation : Option (LabelledSamples α)) :
    LabelledSamples α × Option (LabelledSamples α) :=
  match validation with
  | some v => (samples, some v)
  | none =>
    match c.heldOutAfter samples.inputs.length with
    | some kept => (samples.take kept, some (samples.drop kept))
    | none => (samples, none)

end TrainingConfig

namespace Trainer

variable {α : Type}

/-! ## Stopping -/

def requestStop : StateM (Trainer α) Unit := modify fun t => { t with stopRequested := true }

/-- Asks to stop if the moment has come. -/
def stopIf (now : Bool) : Attempt (Trainer α) Unit := if now then ExceptT.lift requestStop else pure ()

variable [Scalar α]

/-! ## Beginning -/

/-- A fresh optimizer for the parameters of a model. -/
def openOptimizer (config : TrainingConfig) (model : Identity) : Attempt (Trainer α) (Optimizer α) := do
  attempt (Session.report (.optimizerCreated config.optimizer config.learningRate))
  let o ← outcome (OptimizerSettings.ofKind config.optimizer config.learningRate).optimizer
  return o.reset (← attempt (Session.ask model Model.parameters))

/-- Begins a run on the model there is. -/
def begin (r : TrainingRequest α) : Attempt (Trainer α) (TrainingRun α) := do
  let model ← requireModel
  let samples ← outcome (LabelledSamples.ofTensors r.inputs r.labels)
  let given ← outcome (r.validation.mapM fun (inputs, labels) => LabelledSamples.ofTensors inputs labels)
  let (samples, validation) := r.config.divide samples given
  if samples.inputs.length = 0 then throw (.run .noSamples)
  let optimizer ← openOptimizer r.config model
  let loader ← outcome (Loader.ofSettings samples r.config.batchSize r.config.shuffle.isOn false)
  let epochs ← outcome r.config.epochCount
  modify fun t => { t with stopRequested := false, training := true }
  return { config := r.config, epochs, model, optimizer, loader, validation }

/-! ## Epochs -/

/-- One step: a batch forward, the gradient of its loss back, and the parameters moved. -/
def step (run : TrainingRun α) (batch : LabelledSamples α) : Attempt (Trainer α) (Metrics α × TrainingRun α) := do
  let visit {β : Type} (f : Model α → Draw (Except RunError β × Model α)) := attempt (Session.visit run.model f)
  let targets := batch.labels.toTensor
  let predictions ← visit (Model.forward true batch.inputs.toTensor)
  let m ← outcome (metrics run.config.loss predictions targets)
  let gradient ← outcome (RunError.fit (run.config.loss.backward? predictions targets))
  discard (visit fun m => pure (m.backward gradient))
  let gradients ← visit fun m => pure (m.gradients, m)
  let parameters ← visit fun m => pure (m.parameters, m)
  let clipped ← outcome (GradientNorm.clipTo run.config.maxGradNorm gradients)
  let (result, parameters, optimizer) := run.optimizer.step clipped none parameters
  visit fun m => pure (.ok (), m.setParameters parameters)
  outcome result
  return (m, { run with optimizer, steps := run.steps + 1 })

/-- Steps over batches until there are none left or the run is to stop. -/
def runBatches (signals : StopSignals) :
    List (LabelledSamples α) → TrainingRun α → Tally α → Attempt (Trainer α) (TrainingRun α × Tally α)
  | [], run, tally => pure (run, tally)
  | batch :: batches, run, tally => do
    if (← get).stopRequested then return (run, tally)
    let (m, run) ← step run batch
    stopIf (signals.afterStep run.steps)
    runBatches signals batches run (tally.add m batch.inputs.length)

/-- The metrics of an epoch on the held-out samples. -/
def validate (signals : StopSignals) (run : TrainingRun α) (epoch : Nat) : Attempt (Trainer α) (Option (Metrics α)) :=
  match run.validation with
  | none => pure none
  | some samples => do
    let m ← evaluateOn (← requireModel) samples run.config.loss run.config.batchSize
    stopIf (signals.inValidation epoch)
    return some m

/-- Metrics as they are told. -/
def told (m : Metrics α) : Metrics Binary64 := ⟨Scalar.toBinary64 m.loss, Scalar.toBinary64 m.accuracy⟩

/-- One epoch; `none` if it had no batch. -/
def runEpoch (signals : StopSignals) (run : TrainingRun α) :
    Attempt (Trainer α) (Option (EpochEnd α) × TrainingRun α) := do
  let epoch := run.epoch + 1
  let batches ← perform (Session.draw run.loader.epoch)
  let (run, tally) ← runBatches signals batches run .empty
  if tally.seen = 0 then return (none, run)
  let validation ← validate signals run epoch
  tell (.epochEnded epoch run.config.epochs (told tally.mean) (validation.map told))
  return (some ⟨epoch, tally.mean, validation⟩, { run with epoch })

/-! ## Runs -/

/-- Ends a run. -/
def finish (steps : Nat) : Attempt (Trainer α) (Option (EpochEnd α) × Progress α) := do
  modify fun t => { t with training := false }
  if (← get).stopRequested then tell .stoppedEarly
  return (none, .ended steps)

/-- Takes a run to the end of its next epoch, or to its own end.  A run that fails is not training any more. -/
def advance (signals : StopSignals) (run : TrainingRun α) : Attempt (Trainer α) (Option (EpochEnd α) × Progress α) := do
  if run.epoch < run.epochs then
    let (event, run) ← tryCatch (runEpoch signals run) fun e => do
      modify fun t => { t with training := false }
      throw e
    match event with
    | some event => return (some event, .paused run)
    | none => finish run.steps
  else finish run.steps

/-- The next event of a run; none at its end. -/
def next (signals : StopSignals) : Progress α → Attempt (Trainer α) (Option (EpochEnd α) × Progress α)
  | .waiting request => do advance signals (← begin request)
  | .paused run => do if (← get).stopRequested then finish run.steps else advance signals run
  | .ended steps => pure (none, .ended steps)

/-- Ends a run from outside: one that has begun is not training any more. -/
def close (p : Progress α) : StateM (Trainer α) (Progress α) :=
  match p with
  | .paused run => do
    modify fun t => { t with training := false }
    return .ended run.steps
  | p => pure (.ended p.steps)

/-- All events of a run to its end; `fuel` bounds their number. -/
def drive (signals : StopSignals) : Nat → Progress α → Attempt (Trainer α) (List (EpochEnd α) × Progress α)
  | 0, p => pure ([], p)
  | fuel + 1, p => do
    match ← next signals p with
    | (none, p) => return ([], p)
    | (some event, p) =>
      stopIf (signals.atEpochEnd event.epoch)
      let (events, p) ← drive signals fuel p
      return (event :: events, p)

/-- A whole run on the model there is. -/
def fit (signals : StopSignals) (request : TrainingRequest α) : Attempt (Trainer α) (TrainingHistory α) := do
  let fuel := (request.config.epochCount.toOption.getD 0) + 1
  let (events, p) ← drive signals fuel (.waiting request)
  return { events, stoppedEarly := (← get).stopRequested, steps := p.steps }

/-- Builds a design for the loaded data, trains it, and tests it on the test split if that has samples. -/
def train (signals : StopSignals) (design : List Value) (dataset : Option (Attempt (Trainer α) (Dataset α)))
    (config : TrainingConfig) : Attempt (Trainer α) (TrainingHistory α) := do
  if design.length < 2 then throw (.analysis (.design .noHead))
  if let some dataset := dataset then discard (load (← dataset) {})
  match (← get).loaded with
  | none => throw (.run .noDataset)
  | some (_, data) =>
    discard (build (LayerRecord.ofValues 0 design) none)
    let history ← fit signals
      { inputs := data.train.inputs.toTensor, labels := data.train.labels.toTensor, config }
    if data.test.inputs.length = 0 then return history
    let result ← evaluateOn (← requireModel) data.test config.loss config.batchSize
    tell (.tested (told result))
    return { history with test := some result }

end Trainer

end LayerStack
