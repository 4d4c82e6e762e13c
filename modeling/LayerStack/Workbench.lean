import LayerStack.Training.Run

/-!
# LayerStack.Workbench

A trainer together with what is kept at hand: models under names, and a run that is taken step by step.

A model stays alive as long as a name, the compiler or the run refers to it.
-/

namespace LayerStack

/-- A trainer, models under names, and a run. -/
structure Workbench (α : Type) where
  trainer : Trainer α
  slots : List (String × Identity) := []
  run : Progress α := .ended 0

namespace Workbench

variable {α β : Type}

/-- The version of the library. -/
def version : String := "1.0.0"

/-- A fresh workbench on a seed, and whether its log is read. -/
def start [Scalar α] (seed : Int) (isRead : Bool) : Workbench α := { trainer := .start seed isRead }

/-- Runs something on the trainer. -/
def inTrainer (act : StateM (Trainer α) β) : StateM (Workbench α) β := fun w =>
  let (b, trainer) := act w.trainer
  (b, { w with trainer })

/-- Runs something in the session. -/
def inSession (act : StateM (Session α) β) : StateM (Workbench α) β := inTrainer (Trainer.inSession act)

/-- Tries something on the trainer. -/
def attempt (act : Attempt (Trainer α) β) : StateM (Workbench α) (Except Failure β) := inTrainer act.run

/-! ## Models -/

/-- Keeps a model that was compiled under a name. -/
def keep (slot : String) (result : Except Failure Identity) : StateM (Workbench α) (Except Failure Identity) := do
  if let .ok id := result then modify fun w => { w with slots := (slot, id) :: w.slots.filter (·.1 != slot) }
  return result

/-- Compiles a design into a slot. -/
def compile (slot : String) (design : Session.Design) : StateM (Workbench α) (Except Failure Identity) := do
  keep slot (← inSession (Session.compile design))

/-- Compiles a design into a slot by the compiler, which keeps it too. -/
def compileKept (slot : String) (design : Session.Design) : StateM (Workbench α) (Except Failure Identity) := do
  keep slot (← inTrainer (Trainer.inCompiler fun c => c.compile design))

/-- The models that something refers to. -/
def referred (w : Workbench α) : List Identity :=
  w.slots.map (·.2) ++ w.trainer.compiler.model.toList ++
    match w.run with
    | .paused run => [run.model]
    | _ => []

/-- Collects the models that nothing refers to any more. -/
def sweep : StateM (Workbench α) Unit := do
  inSession (Session.collect (← get).referred)

/-! ## The run -/

variable [Scalar α]

/-- Puts a run in the place of the one there is, which ends. -/
def openRun (request : TrainingRequest α) : StateM (Workbench α) Unit := do
  discard (inTrainer (Trainer.close (← get).run))
  modify fun w => { w with run := .waiting request }

/-- The next event of the run; one that fails has ended. -/
def nextEvent : StateM (Workbench α) (Except Failure (Option (EpochEnd α))) := do
  let before := (← get).run
  match ← attempt (Trainer.next {} before) with
  | .ok (event, run) =>
    modify fun w => { w with run }
    return .ok event
  | .error e =>
    modify fun w => { w with run := .ended before.steps }
    return .error e

/-- Ends the run. -/
def closeRun : StateM (Workbench α) Unit := do
  let run ← inTrainer (Trainer.close (← get).run)
  modify fun w => { w with run }

end Workbench

end LayerStack
