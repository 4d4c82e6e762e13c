import LayerStack.Dataset
import LayerStack.Log
import LayerStack.Model.Summary
import LayerStack.Operator.Build

/-!
# LayerStack.Session

Everything that lives while models are compiled, run and disposed of.

A session has the stream of random numbers, the builders of operators, the datasets by name, the models that are alive,
the memory they hold and the log.  Every model has an identity of its own.  Its tensors are tracked from its compilation
until it is disposed of or nothing refers to it any more; a compilation that fails leaves nothing behind.
-/

namespace LayerStack

/-- What ends an operation. -/
inductive Failure where
  | analysis (error : AnalysisError)
  | run (error : RunError)
deriving Repr

def Failure.message : Failure → String
  | .analysis e => e.message
  | .run e => e.message

/-- Makes the operator of a layer that takes a shape. -/
abbrev OperatorBuilder (α : Type) := LayerConfig → Shape → Draw (Except RunError (Operator α))

/-- A builder that always fails. -/
def OperatorBuilder.failing {α : Type} (reason : String) : OperatorBuilder α :=
  fun _ _ => pure (.error (.build (.other reason)))

/-- Operator builders by type tag. -/
abbrev OperatorBuilders (α : Type) := List (String × OperatorBuilder α)

namespace OperatorBuilders

variable {α : Type}

/-- The builders there are from the start: one for every type but the input. -/
def stock [Scalar α] : OperatorBuilders α :=
  (LayerType.all.filter (· ≠ .input)).map fun t => (t.tag, LayerConfig.build)

/-- Puts a builder under a tag, in place of the one that was there. -/
def register (b : OperatorBuilders α) (tag : String) (builder : OperatorBuilder α) : OperatorBuilders α :=
  (tag, builder) :: b.filter (·.1 != tag)

/-- The tags, in order. -/
def tags (b : OperatorBuilders α) : List String := (b.map (·.1)).mergeSort fun a b => !(b < a : Bool)

/-- The operators of some layers; the first that cannot be built is reported as a layer that cannot take its shape. -/
def build (b : OperatorBuilders α) : List ResolvedLayer → Draw (Except Failure (List (Operator α)))
  | [] => pure (.ok [])
  | layer :: layers =>
    match b.lookup layer.type.tag with
    | none => pure (.error (.analysis (.fault (.incomplete layer.type.tag))))
    | some builder => do
      match ← builder layer.config layer.input with
      | .error (.build e) => return .error (.analysis (.design (.shape layer.index layer.type.tag e.message)))
      | .error e => return .error (.run e)
      | .ok o =>
        match ← build b layers with
        | .error e => return .error e
        | .ok os => return .ok (o :: os)

end OperatorBuilders

/-- The state of a session. -/
structure Session (α : Type) where
  stream : Stream
  builders : OperatorBuilders α
  datasets : DatasetRegistry α := []
  models : List (Identity × Model α) := []
  /-- The next identity: none that is alive is as large. -/
  next : Identity := 0
  memory : MemoryTracker := {}
  log : Array LogEntry := #[]
  /-- Is the log read?  Then an entry without a wording stops what it tells of. -/
  isRead : Bool := false

namespace Session

variable {α β : Type}

/-- A fresh session on a seed, and whether its log is read. -/
def start [Scalar α] (seed : Int) (isRead : Bool) : Session α := { stream := .ofSeed seed, builders := .stock, isRead }

/-- Adds to the log. -/
def tell (entry : LogEntry) : StateM (Session α) Unit := modify fun s => { s with log := s.log.push entry }

/-- Adds to the log what may have no wording. -/
def report (entry : LogEntry) : StateM (Session α) (Except RunError Unit) := fun s =>
  match s.isRead, entry.unworded? with
  | true, some e => (.error e, s)
  | _, _ => (.ok (), { s with log := s.log.push entry })

/-- Takes the log away. -/
def takeLog : StateM (Session α) (Array LogEntry) := fun s => (s.log, { s with log := #[] })

/-- Draws from the session's stream. -/
def draw (d : Draw β) : StateM (Session α) β := fun s =>
  let (b, stream) := d s.stream
  (b, { s with stream })

/-! ## Models -/

def model? (s : Session α) (id : Identity) : Option (Model α) := s.models.lookup id

/-- Puts a model in the place of the one with its identity. -/
def replace (id : Identity) (m : Model α) (models : List (Identity × Model α)) : List (Identity × Model α) :=
  models.map fun (i, old) => if i = id then (i, m) else (i, old)

/-- Runs something on a model. -/
def visit (id : Identity) (run : Model α → Draw (Except RunError β × Model α)) :
    StateM (Session α) (Except RunError β) := fun s =>
  match s.model? id with
  | none => (.error .noModel, s)
  | some m =>
    let ((result, m), stream) := run m s.stream
    (result, { s with stream, models := replace id m s.models })

/-- Asks something of a model. -/
def ask (id : Identity) (question : Model α → Except RunError β) : StateM (Session α) (Except RunError β) :=
  visit id fun m => pure (question m, m)

/-- Takes in a new model and tracks its tensors. -/
def enroll (m : Model α) : StateM (Session α) Identity := fun s =>
  (s.next, { s with next := s.next + 1, models := (s.next, m) :: s.models
                    memory := s.memory.track s.next (m.owned.map some) })

/-! ## Compilation -/

/-- The records of a design, or why it cannot be read. -/
abbrev Design := Except DesignError (List LayerRecord)

/-- The plan of a design. -/
def plan (design : Design) : StateM (Session α) (Analysis ShapePlan) :=
  match design with
  | .error e => pure (.error (.design e))
  | .ok records => do
    match ShapePlan.promotion? records with
    | some (declared, input) => tell (.promoted declared input)
    | none => pure ()
    return ShapePlan.ofRecords records

/-- Compiles a design into a new model. -/
def compile (design : Design) : StateM (Session α) (Except Failure Identity) := do
  match ← plan design with
  | .error e => return .error (.analysis e)
  | .ok plan =>
    match ← draw ((← get).builders.build plan.layers) with
    | .error e => return .error e
    | .ok operators =>
      let m : Model α := { plan, operators }
      let id ← enroll m
      tell (.compiled operators.length plan.input plan.output m.trainable)
      return .ok id

/-! ## The end of a model -/

/-- Disposes of a model; a second time does nothing. -/
def dispose (id : Identity) : StateM (Session α) Unit := do
  match (← get).model? id with
  | none => pure ()
  | some m =>
    if m.disposed then pure ()
    else
      let released ← modifyGet fun s =>
        let (released, memory) := s.memory.release id
        (released, { s with memory, models := replace id m.dispose s.models })
      tell (.disposed released)

/-- Collects all models but those that something refers to. -/
def collect (referred : List Identity) : StateM (Session α) Unit := modify fun s =>
  let (kept, gone) := s.models.partition fun (id, _) => referred.contains id
  { s with models := kept, memory := gone.foldl (fun memory (id, _) => memory.collect id) s.memory }

/-- Tells how much memory is held. -/
def tellMemory (label : Value) : StateM (Session α) MemoryInfo := do
  let info := (← get).memory.info
  tell (.memoryUsage label info)
  return info

end Session

end LayerStack
