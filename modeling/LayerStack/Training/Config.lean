import LayerStack.RunError

/-!
# LayerStack.Training.Config

The settings of a training run.

Settings come under the names of a form or of a program, in any form, and later ones replace earlier ones of the same
option.  They are checked option by option, in a fixed order, and the first bad one is reported.
-/

namespace LayerStack

/-- What can be set for a training run. -/
inductive TrainingOption where
  | epochs | batchSize | learningRate | optimizer | loss | validationSplit | maxGradNorm | shuffle | verbose
deriving Repr, DecidableEq

namespace TrainingOption

def all : List TrainingOption :=
  [.epochs, .batchSize, .learningRate, .optimizer, .loss, .validationSplit, .maxGradNorm, .shuffle, .verbose]

/-- The name of an option. -/
def key : TrainingOption → String
  | .epochs => "epochs"
  | .batchSize => "batch_size"
  | .learningRate => "learning_rate"
  | .optimizer => "optimizer"
  | .loss => "loss"
  | .validationSplit => "validation_split"
  | .maxGradNorm => "max_grad_norm"
  | .shuffle => "shuffle"
  | .verbose => "verbose"

/-- The name of an option in a form. -/
def formKey : TrainingOption → String
  | .batchSize => "batchSize"
  | .learningRate => "learningRate"
  | .validationSplit => "validationSplit"
  | .maxGradNorm => "maxGradNorm"
  | o => o.key

def ofKey? (key : String) : Option TrainingOption := all.find? fun o => o.key == key || o.formKey == key

/-- What holds where an option is not set. -/
def default : TrainingOption → Value
  | .epochs => .int 10
  | .batchSize => .int 32
  | .learningRate => .float (.ofDecimal false 1 (-3))
  | .optimizer => .text OptimizerKind.adam.name
  | .loss => .text Loss.categoricalCrossentropy.name
  | .validationSplit => .float (.ofDecimal false 2 (-1))
  | .maxGradNorm => .absent
  | .shuffle => .bool true
  | .verbose => .bool false

end TrainingOption

/-- The settings of a training run.  Numbers keep the form they were given in. -/
structure TrainingConfig where
  epochs : Value
  batchSize : Value
  learningRate : Value
  optimizer : OptimizerKind
  loss : Loss
  validationSplit : Value
  /-- The greatest norm of all gradients together, absent for no limit. -/
  maxGradNorm : Value
  shuffle : Value
  verbose : Value
deriving Repr

namespace TrainingConfig

/-- A value for every option. -/
abbrev Given := TrainingOption → Value

/-- The value of every option after some were set in turn. -/
def gather (given : Given) : Mapping → Except RunError Given
  | [] => .ok given
  | (key, value) :: rest =>
    match (LayerConfig.named? TrainingOption.ofKey?) key with
    | some option => gather (fun o => if o = option then value else given o) rest
    | none => .error (.unknownOption key.toText)

/-- A number that is not bad in some way. -/
def requireNumber (requirement : String) (bad : Number → Bool) (given : Value) : Except RunError Unit :=
  match given.quantity? with
  | none => .error .illTyped
  | some n => if bad n then .error (.setting requirement given) else .ok ()

/-- The name in a value that chooses by name; only plain values can be looked up. -/
def nameOf : Value → Except RunError String
  | .list _ | .mapping _ | .array _ => .error .illTyped
  | v => .ok v.toText

/-- The settings, if all of them are in order. -/
def check (given : Given) : Except RunError TrainingConfig := do
  requireNumber "epochs must be at least 1" (Number.lt · (.int 1)) (given .epochs)
  requireNumber "batch_size must be at least 1" (Number.lt · (.int 1)) (given .batchSize)
  requireNumber "learning_rate must be positive" (Number.le · (.int 0)) (given .learningRate)
  let optimizer ← OptimizerKind.choose (← nameOf (given .optimizer))
  let loss ← Loss.choose (← nameOf (given .loss))
  requireNumber "validation_split must be in [0, 1)" (fun n => !(Number.le (.int 0) n && Number.lt n (.int 1)))
    (given .validationSplit)
  if !(given .maxGradNorm matches .absent) then
    requireNumber "max_grad_norm must be positive" (Number.le · (.int 0)) (given .maxGradNorm)
  return {
    epochs := given .epochs, batchSize := given .batchSize, learningRate := given .learningRate, optimizer, loss
    validationSplit := given .validationSplit, maxGradNorm := given .maxGradNorm, shuffle := given .shuffle
    verbose := given .verbose }

/-- The settings that the entries of a mapping make. -/
def ofEntries (entries : Mapping) : Except RunError TrainingConfig := do
  check (← gather TrainingOption.default entries)

end TrainingConfig

end LayerStack
