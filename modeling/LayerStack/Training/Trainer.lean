import LayerStack.Compiler
import LayerStack.Loader
import LayerStack.Optimizer
import LayerStack.Training.Config
import LayerStack.Training.Head

/-!
# LayerStack.Training.Trainer

A trainer: a session with a compiler, the data that was loaded, and whether it is training.

An operation that fails keeps what it has done so far.
-/

namespace LayerStack

/-- What a trainer has to do with. -/
structure Trainer (α : Type) where
  session : Session α
  compiler : ModelCompiler := {}
  loaded : Option (DatasetMetadata × LoadedData α) := none
  stopRequested : Bool := false
  training : Bool := false

/-- An operation that may fail, and keeps what it has done so far. -/
abbrev Attempt (σ β : Type) := ExceptT Failure (StateM σ) β

namespace Trainer

variable {α β : Type}

/-- A fresh trainer on a seed, and whether its log is read. -/
def start [Scalar α] (seed : Int) (isRead : Bool) : Trainer α := { session := .start seed isRead }

/-! ## Parts -/

/-- Runs something in the session. -/
def inSession (act : StateM (Session α) β) : StateM (Trainer α) β := fun t =>
  let (b, session) := act t.session
  (b, { t with session })

/-- Runs something on the compiler. -/
def inCompiler (act : ModelCompiler → StateM (Session α) (β × ModelCompiler)) : StateM (Trainer α) β := fun t =>
  let ((b, compiler), session) := act t.compiler t.session
  (b, { t with session, compiler })

/-- An operation that does nothing but have an outcome. -/
def outcome (result : Except RunError β) : Attempt (Trainer α) β := ExceptT.mk (pure (result.mapError .run))

/-- Runs something in the session that may fail. -/
def attempt (act : StateM (Session α) (Except RunError β)) : Attempt (Trainer α) β :=
  ExceptT.mk ((·.mapError .run) <$> inSession act)

/-- Runs something in the session that cannot fail. -/
def perform (act : StateM (Session α) β) : Attempt (Trainer α) β := ExceptT.lift (inSession act)

def tell (entry : LogEntry) : Attempt (Trainer α) Unit := perform (Session.tell entry)

def resetCompiler : Attempt (Trainer α) Unit := ExceptT.lift (inCompiler fun c => ((), ·) <$> c.reset)

/-- The model of the trainer's compiler. -/
def requireModel : Attempt (Trainer α) Identity := do
  match (← get).compiler.model with
  | some id => return id
  | none => throw (.run .noModel)

variable [Scalar α]

/-! ## Data -/

/-- Loads a dataset. -/
def load (dataset : Dataset α) (options : LoadOptions) : Attempt (Trainer α) (LoadedData α) := do
  let data ← attempt (Session.draw (dataset.load options))
  tell (.loaded dataset.metadata.name data.train.inputs.length data.test.inputs.length)
  modify fun t => { t with loaded := some (dataset.metadata, data) }
  return data

/-- The dataset of a name. -/
def dataset (name : String) : Attempt (Trainer α) (Dataset α) := do
  outcome ((← get).session.datasets.get name)

/-! ## Models -/

/-- The design to build: with a head for the classes that are given or, failing that, for those of the dataset. -/
def designFor (design : Session.Design) (classes : Option Value) : Attempt (Trainer α) (List LayerRecord) := do
  match classes <|> (← get).loaded.map (·.1.classes) with
  | some classes => ExceptT.mk (inSession (Head.ensure design classes))
  | none => ExceptT.mk (pure (design.mapError fun e => .analysis (.design e)))

/-- Builds a model in place of the one there is.  A compiler that has failed starts anew first. -/
def build (design : Session.Design) (classes : Option Value) : Attempt (Trainer α) Identity := do
  let records ← designFor design classes
  if (← get).compiler.state = .failed then resetCompiler
  let id ← ExceptT.mk (inCompiler fun c => c.compile (.ok records))
  if let some m := (← get).session.model? id then tell (.built (thousandsText m.trainable) m.summaryText)
  return id

/-- Drops the data and disposes of the model. -/
def dispose : StateM (Trainer α) Unit := do
  modify fun t => { t with loaded := none }
  inCompiler fun c => ((), ·) <$> c.dispose
  discard (inSession (Session.tellMemory (.text "After dispose")))

/-! ## Passes -/

/-- Predictions for a batch. -/
def predict (x : AnyTensor α) : Attempt (Trainer α) (AnyTensor α) := do
  let id ← requireModel
  attempt (Session.visit id (Model.predict x))

/-- The loss and the accuracy of predictions. -/
def metrics (loss : Loss) (predictions targets : AnyTensor α) : Except RunError (Metrics α) := do
  return ⟨← RunError.fit (loss.value? predictions targets), ← RunError.fit (accuracy? predictions targets)⟩

/-- Metrics of batches, weighted by their lengths. -/
structure Tally (α : Type) where
  loss : α
  accuracy : α
  seen : Nat

namespace Tally

def empty : Tally α := ⟨0, 0, 0⟩

def add (t : Tally α) (m : Metrics α) (length : Nat) : Tally α :=
  ⟨t.loss + m.loss * (length : α), t.accuracy + m.accuracy * (length : α), t.seen + length⟩

def mean (t : Tally α) : Metrics α := ⟨t.loss / (t.seen : α), t.accuracy / (t.seen : α)⟩

end Tally

/-- Adds the metrics of some batches to a tally. -/
def evaluateBatches (id : Identity) (loss : Loss) :
    List (LabelledSamples α) → Tally α → Attempt (Trainer α) (Tally α)
  | [], tally => pure tally
  | batch :: batches, tally => do
    let predictions ← attempt (Session.visit id (Model.predict batch.inputs.toTensor))
    let m ← outcome (metrics loss predictions batch.labels.toTensor)
    evaluateBatches id loss batches (tally.add m batch.inputs.length)

/-- The loss and the accuracy of the model on some samples. -/
def evaluateOn (id : Identity) (samples : LabelledSamples α) (loss : Loss) (batchSize : Value) :
    Attempt (Trainer α) (Metrics α) := do
  let loader ← outcome (Loader.ofSettings samples batchSize false false)
  let batches ← perform (Session.draw loader.epoch)
  let tally ← evaluateBatches id loss batches .empty
  if tally.seen = 0 then throw (.run .emptyEvaluation)
  return tally.mean

/-- The loss, by its name, and the accuracy of the model on some tensors. -/
def evaluate (inputs labels : AnyTensor α) (loss : Value) (batchSize : Value) : Attempt (Trainer α) (Metrics α) := do
  let id ← requireModel
  let loss ← outcome (TrainingConfig.nameOf loss >>= Loss.choose)
  let samples ← outcome (LabelledSamples.ofTensors inputs labels)
  evaluateOn id samples loss batchSize

end Trainer

end LayerStack
