import LayerStack.Binary64.Rounded
import LayerStack.Memory
import LayerStack.RunError
import LayerStack.Value.Share

/-!
# LayerStack.Log

What is told of a session while it goes on.

Every entry has a level and one wording.  Numbers of a run are told with four decimal places, the time of an epoch not
at all.  What was set for a run is told as a number, and cannot be told where it is none of the form that is asked for.
-/

namespace LayerStack

/-- How much an entry matters. -/
inductive LogLevel where
  | debug | info | warning
deriving Repr, DecidableEq

def LogLevel.name : LogLevel → String
  | .debug => "DEBUG"
  | .info => "INFO"
  | .warning => "WARNING"

/-- The loss and the accuracy of a model on some samples. -/
structure Metrics (α : Type) where
  loss : α
  accuracy : α
deriving Repr

/-- Something that happened. -/
inductive LogEntry where
  | promoted (declared input : Shape)
  | compiled (operators : Nat) (input output : Shape) (trainable : Nat)
  | disposed (tensors : Nat)
  | compilationFailed (reason : String)
  | memoryUsage (label : Value) (info : MemoryInfo)
  | optimizerCreated (kind : OptimizerKind) (learningRate : Value)
  | loaded (name : Value) (train test : Nat)
  | headAdded (classes : Value)
  | built (trainable : String) (summary : String)
  | epochEnded (epoch : Nat) (epochs : Value) (training : Metrics Binary64) (validation : Option (Metrics Binary64))
  | stoppedEarly
  | tested (result : Metrics Binary64)
deriving Repr

namespace LogEntry

def level : LogEntry → LogLevel
  | .promoted .. | .compiled .. | .disposed _ | .compilationFailed _ | .optimizerCreated .. => .debug
  | .headAdded _ => .warning
  | .memoryUsage .. | .loaded .. | .built .. | .epochEnded .. | .stoppedEarly | .tested _ => .info

/-- A metric to four places. -/
def metric (x : Binary64) : String := x.toFixed 4

/-- A setting as a number of at most six digits. -/
def settingText (v : Value) : String := (v.quantity?.map (·.toBinary64.toGeneral 6)).getD v.toText

/-- A setting as a whole number. -/
def countText (v : Value) : String := ((v.quantity?.bind Number.truncate?).map toString).getD v.toText

/-- Why an entry has no wording, if it has none: a setting is no number, or none of the form it is told in. -/
def unworded? : LogEntry → Option RunError
  | .headAdded classes =>
    match classes.quantity? with
    | none => some .illTyped
    | some n => if n.truncate?.isSome then none else some (if n.isInfinite then .tooLarge else .mismatch)
  | .optimizerCreated _ rate =>
    match rate.quantity? with
    | none => some .illTyped
    | some n => if n.hasDouble then none else some .tooLarge
  | _ => none

def message : LogEntry → String
  | .promoted declared input => s!"Promoted input shape {declared.rowText} to {input.rowText}"
  | .compiled operators input output trainable =>
    s!"Compiled {operators} operators: {input.text} -> {output.text} ({trainable} trainable parameters)"
  | .disposed tensors => s!"Disposed model, released {tensors} tensors"
  | .compilationFailed reason => s!"Compilation failed: {reason}"
  | .memoryUsage label info =>
    (if label.isOn then label.toText ++ ": " else "")
      ++ s!"Tensors: {info.tensors}, Memory: {info.megabytes.toFixed 2} MB"
  | .optimizerCreated kind rate => s!"Creating {kind.name} optimizer (learning rate {settingText rate})"
  | .loaded name train test => s!"Loaded {name.toText}: {train} train / {test} test samples"
  | .headAdded classes => s!"Adding output layer for {countText classes}-class classification"
  | .built trainable summary => s!"Built model with {trainable} trainable parameters\n{summary}"
  | .epochEnded epoch epochs training validation =>
    s!"Epoch {epoch}/{countText epochs} (*): loss {metric training.loss}, accuracy {metric training.accuracy}"
      ++ (validation.map fun v => s!", val_loss {metric v.loss}, val_accuracy {metric v.accuracy}").getD ""
  | .stoppedEarly => "Training stopped early"
  | .tested result => s!"Test loss {metric result.loss}, test accuracy {metric result.accuracy}"

end LogEntry

end LayerStack
