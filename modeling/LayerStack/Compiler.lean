import LayerStack.Session

/-!
# LayerStack.Compiler

A compiler that keeps at most one model.

It is uninitialized, compiling, compiled or failed.  Compiling a design while a model is there disposes of that model
first, whatever becomes of the new one.  A compiler that has failed compiles nothing until it is reset.
-/

namespace LayerStack

/-- Where a compiler is in its life. -/
inductive CompilerState where
  | uninitialized | compiling | compiled | failed
deriving Repr, DecidableEq

def CompilerState.name : CompilerState → String
  | .uninitialized => "uninitialized"
  | .compiling => "compiling"
  | .compiled => "compiled"
  | .failed => "failed"

/-- A compiler, the model it keeps, and what it failed with. -/
structure ModelCompiler where
  state : CompilerState := .uninitialized
  model : Option Identity := none
  lastError : Option Failure := none
deriving Repr

namespace ModelCompiler

variable {α : Type}

/-- Disposes of the model a compiler keeps. -/
def release (c : ModelCompiler) : StateM (Session α) ModelCompiler :=
  match c.model with
  | none => pure c
  | some id => do
    Session.dispose id
    return { c with model := none }

/-- Compiles a design, with the outcome in the compiler. -/
def settle (c : ModelCompiler) (design : Session.Design) :
    StateM (Session α) (Except Failure Identity × ModelCompiler) := do
  match ← Session.compile design with
  | .ok id => return (.ok id, { c with state := .compiled, model := some id })
  | .error e =>
    Session.tell (.compilationFailed e.message)
    return (.error e, { c with state := .failed, lastError := some e })

/-- Compiles a design in place of the model there is. -/
def compile (c : ModelCompiler) (design : Session.Design) :
    StateM (Session α) (Except Failure Identity × ModelCompiler) :=
  match c.state with
  | .failed => pure (.error (.run .compilerFailed), c)
  | .compiling => pure (.error (.run .compilerBusy), c)
  | .uninitialized | .compiled => do
    let c ← c.release
    { c with state := .compiling }.settle design

/-- Disposes of the model; a failed compiler stays failed. -/
def dispose (c : ModelCompiler) : StateM (Session α) ModelCompiler := do
  let c ← c.release
  return { c with state := if c.state = .compiled then .uninitialized else c.state }

/-- Starts anew. -/
def reset (c : ModelCompiler) : StateM (Session α) ModelCompiler := do
  let c ← c.dispose
  return { c with state := .uninitialized, lastError := none }

end ModelCompiler

end LayerStack
