import LayerStack.Optimizer
import LayerStack.Proofs.Compiler.Lifecycle
import LayerStack.Proofs.Session.Memory
import Mathlib.Logic.Function.Basic

/-!
# LayerStack.Proofs.Compiler.Memory

The memory counters over whole runs.

A workshop is a session with any number of compilers.  Whatever happens in it, in any order, the tracker accounts for
the models that are alive, and each of them owns what it owned when it was compiled (`Kept.step`, `Kept.run`).
-/

namespace LayerStack

variable {α : Type}

/-! ## Compilers -/

namespace Session

variable {s : Session α} {c : ModelCompiler}

theorem Accounts.release (h : s.Accounts) (c : ModelCompiler) :
    (c.release s).2.Accounts ∧ Follows s (c.release s).2 := by
  cases hmodel : c.model with
  | none =>
      rw [ModelCompiler.release_of_none hmodel]
      exact ⟨h, Follows.refl s⟩
  | some id =>
      rw [ModelCompiler.release_of_some hmodel]
      exact h.dispose (disposeStep id s)

theorem isAlive_release (c : ModelCompiler) (s : Session α) (id : Identity) :
    (c.release s).2.IsAlive id ↔ s.IsAlive id ∧ c.model ≠ some id := by
  cases hmodel : c.model with
  | none =>
      rw [ModelCompiler.release_of_none hmodel]
      simp
  | some current =>
      rw [ModelCompiler.release_of_some hmodel, (disposeStep current s).isAlive_iff]
      simp [eq_comm]

/-- A compiler ends the model it lets go of, and makes the one it returns alive. -/
theorem isAlive_compileBy (hc : c.Settled) {design : Design} {r : (Except Failure Identity × ModelCompiler) × Session α}
    (hstep : c.CompileStep design s r) (id : Identity) :
    r.2.IsAlive id ↔ r.1.1 = .ok id ∨ s.IsAlive id ∧ c.model ≠ some id := by
  cases hstep with
  | refused hstate => simp [hc.model_eq_none hstate]
  | failed _ hfailed log =>
      have halive := (compileStep_of_eq hfailed).isAlive_iff id
      rw [← isAlive_release]
      exact halive
  | compiled _ hcompiled =>
      have halive := (compileStep_of_eq hcompiled).isAlive_iff id
      rw [← isAlive_release]
      exact halive

/-- What a compiler does to its models and to a new one is accounted for. -/
theorem Accounts.compileBy (h : s.Accounts) {design : Design}
    {r : (Except Failure Identity × ModelCompiler) × Session α} (hstep : c.CompileStep design s r) :
    r.2.Accounts ∧ Follows s r.2 := by
  obtain ⟨hreleased, hfollows⟩ := h.release c
  cases hstep with
  | refused => exact ⟨h, Follows.refl s⟩
  | @failed e s' _ hfailed log =>
      obtain ⟨haccounts, hfollows'⟩ := hreleased.compile (compileStep_of_eq hfailed)
      obtain ⟨htold, hfollows''⟩ := haccounts.congr { s' with log } rfl rfl rfl
      exact ⟨htold, (hfollows.trans hfollows').trans hfollows''⟩
  | compiled _ hcompiled =>
      obtain ⟨haccounts, hfollows'⟩ := hreleased.compile (compileStep_of_eq hcompiled)
      exact ⟨haccounts, hfollows.trans hfollows'⟩

/-- Where a compiler fails, the memory is that without the model it let go of. -/
theorem memory_compileBy_of_error (hc : c.Settled) {design : Design}
    {r : (Except Failure Identity × ModelCompiler) × Session α} (hstep : c.CompileStep design s r) {e : Failure}
    (he : r.1.1 = .error e) : r.2.memory = (c.release s).2.memory := by
  cases hstep with
  | refused hstate => rw [ModelCompiler.release_of_none (hc.model_eq_none hstate)]
  | failed _ hfailed log => exact ((compileStep_of_eq hfailed).of_error rfl).1
  | compiled => contradiction

end Session

/-! ## Workshops -/

/-- A session, and compilers by number. -/
structure Workshop (α : Type) where
  session : Session α
  compilers : Nat → ModelCompiler := fun _ => {}

namespace Workshop

/-- What can happen in a workshop.  Models are compiled directly or by one of the compilers, with the stock builders or
with others, whatever those return.  They are moved, with an optimizer or without, disposed of and collected. -/
inductive Event (α : Type) where
  | register (tag : String) (builder : OperatorBuilder α)
  | compile (design : Session.Design)
  | compileBy (k : Nat) (design : Session.Design)
  | disposeBy (k : Nat)
  | resetBy (k : Nat)
  | move (id : Identity) (move : Model.Move α)
  | descend (id : Identity) (o : Optimizer α) (gradients : List (String × Option (AnyTensor α))) (rate : Option Value)
  | dispose (id : Identity)
  | collect (referred : List Identity)

/-- The workshop after a compiler did something. -/
def put (w : Workshop α) (k : Nat) (c : ModelCompiler) (s : Session α) : Workshop α where
  session := s
  compilers := Function.update w.compilers k c

variable [Scalar α]

/-- A model after a step of an optimizer. -/
def descend (o : Optimizer α) (gradients : List (String × Option (AnyTensor α))) (rate : Option Value) (m : Model α) :
    Except RunError Unit × Model α :=
  match m.parameters with
  | .error e => (.error e, m)
  | .ok parameters =>
    let (result, parameters, _) := o.step gradients rate parameters
    (result, m.setParameters parameters)

/-- A workshop after one more event. -/
def step (w : Workshop α) : Event α → Workshop α
  | .register tag builder =>
    { w with session := { w.session with builders := w.session.builders.register tag builder } }
  | .compile design => { w with session := (Session.compile design w.session).2 }
  | .compileBy k design =>
    let ((_, c), s) := (w.compilers k).compile design w.session
    w.put k c s
  | .disposeBy k =>
    let (c, s) := (w.compilers k).dispose w.session
    w.put k c s
  | .resetBy k =>
    let (c, s) := (w.compilers k).reset w.session
    w.put k c s
  | .move id move =>
    { w with session := (Session.visit id (fun m => do return (.ok (), ← move.run m)) w.session).2 }
  | .descend id o gradients rate =>
    { w with session := (Session.visit id (fun m => pure (descend o gradients rate m)) w.session).2 }
  | .dispose id => { w with session := (Session.dispose id w.session).2 }
  | .collect referred => { w with session := (Session.collect referred w.session).2 }

/-- A workshop after some events. -/
def run (w : Workshop α) (events : List (Event α)) : Workshop α := events.foldl step w

/-- A fresh session with new compilers. -/
def start (seed : Int) (isRead : Bool) : Workshop α := { session := .start seed isRead }

/-! ## What is kept -/

omit [Scalar α] in
/-- The session of a workshop accounts for its memory, and its compilers are settled. -/
structure Kept (w : Workshop α) : Prop where
  accounts : w.session.Accounts
  compilers : ∀ k, (w.compilers k).Settled

theorem kept_start (seed : Int) (isRead : Bool) : (start seed isRead : Workshop α).Kept where
  accounts := Session.accounts_start seed isRead
  compilers := fun _ => ModelCompiler.settled_new

variable {w : Workshop α}

omit [Scalar α] in
theorem Kept.put (h : w.Kept) (k : Nat) {c : ModelCompiler} {s : Session α} (hc : c.Settled) (hs : s.Accounts) :
    (w.put k c s).Kept where
  accounts := hs
  compilers := by
    intro k'
    show (Function.update w.compilers k c k').Settled
    by_cases hk : k' = k
    · rw [hk, Function.update_self]
      exact hc
    · rw [Function.update_of_ne hk]
      exact h.compilers k'

theorem keeps_descend (o : Optimizer α) (gradients : List (String × Option (AnyTensor α))) (rate : Option Value)
    {m : Model α} (hlength : m.operators.length = m.plan.layers.length) :
    m.Keeps (descend o gradients rate m).2 := by
  rw [descend]
  cases hparameters : m.parameters with
  | error e => exact Model.Keeps.refl m
  | ok parameters => exact Model.keeps_change hlength (TensorChange.ofValues _)

/-- Every event keeps the accounts of a workshop, and what its models own. -/
theorem Kept.step (h : w.Kept) (event : Event α) :
    (w.step event).Kept ∧ Session.Follows w.session (w.step event).session := by
  cases event with
  | register tag builder =>
      obtain ⟨haccounts, hfollows⟩ := h.accounts.congr
        { w.session with builders := w.session.builders.register tag builder } rfl rfl rfl
      exact ⟨⟨haccounts, h.compilers⟩, hfollows⟩
  | compile design =>
      obtain ⟨haccounts, hfollows⟩ := h.accounts.compile (Session.compileStep design w.session)
      exact ⟨⟨haccounts, h.compilers⟩, hfollows⟩
  | compileBy k design =>
      have hstep := ModelCompiler.compileStep (h.compilers k).idle design w.session
      obtain ⟨haccounts, hfollows⟩ := h.accounts.compileBy hstep
      exact ⟨h.put k ((h.compilers k).compile hstep) haccounts, hfollows⟩
  | disposeBy k =>
      have hsettled := (h.compilers k).dispose w.session
      obtain ⟨haccounts, hfollows⟩ := h.accounts.release (w.compilers k)
      rw [Workshop.step, ModelCompiler.dispose_eq]
      rw [ModelCompiler.dispose_eq] at hsettled
      exact ⟨h.put k hsettled haccounts, hfollows⟩
  | resetBy k =>
      obtain ⟨haccounts, hfollows⟩ := h.accounts.release (w.compilers k)
      rw [Workshop.step, ModelCompiler.reset_eq]
      exact ⟨h.put k ModelCompiler.settled_new haccounts, hfollows⟩
  | move id move =>
      obtain ⟨haccounts, hfollows⟩ := h.accounts.visit id (fun m => do return (Except.ok (), ← move.run m))
        fun m stream hlength => Model.keeps_run hlength move stream
      exact ⟨⟨haccounts, h.compilers⟩, hfollows⟩
  | descend id o gradients rate =>
      obtain ⟨haccounts, hfollows⟩ := h.accounts.visit id (fun m => pure (Workshop.descend o gradients rate m))
        fun m stream hlength => keeps_descend o gradients rate hlength
      exact ⟨⟨haccounts, h.compilers⟩, hfollows⟩
  | dispose id =>
      obtain ⟨haccounts, hfollows⟩ := h.accounts.dispose (Session.disposeStep id w.session)
      exact ⟨⟨haccounts, h.compilers⟩, hfollows⟩
  | collect referred =>
      obtain ⟨haccounts, hfollows⟩ := h.accounts.collect referred
      exact ⟨⟨haccounts, h.compilers⟩, hfollows⟩

theorem Kept.run (h : w.Kept) (events : List (Event α)) :
    (w.run events).Kept ∧ Session.Follows w.session (w.run events).session := by
  induction events generalizing w with
  | nil => exact ⟨h, Session.Follows.refl w.session⟩
  | cons event events ih =>
      obtain ⟨hkept, hfollows⟩ := h.step event
      obtain ⟨hkept', hfollows'⟩ := ih hkept
      exact ⟨hkept', hfollows.trans hfollows'⟩

/-! ## Who is alive -/

/-- The model that an event compiles, if it does. -/
def newModel? (w : Workshop α) : Event α → Option Identity
  | .compile design => (Session.compile design w.session).1.toOption
  | .compileBy k design => ((w.compilers k).compile design w.session).1.1.toOption
  | _ => none

/-- Does an event leave a model be?  It does not if it disposes of the model, makes a compiler let go of it, or collects
it because nothing refers to it. -/
def Spares (w : Workshop α) : Event α → Identity → Prop
  | .dispose id => (· ≠ id)
  | .collect referred => (· ∈ referred)
  | .compileBy k _ | .disposeBy k | .resetBy k => fun id => (w.compilers k).model ≠ some id
  | _ => fun _ => True

/-- After an event those models are alive that it compiled, and those that were and that it spared. -/
theorem Kept.isAlive_step (h : w.Kept) (event : Event α) (id : Identity) :
    (w.step event).session.IsAlive id ↔ w.newModel? event = some id ∨ w.session.IsAlive id ∧ w.Spares event id := by
  cases event with
  | register tag builder => simp [newModel?, Spares, Workshop.step, Session.IsAlive, Session.model?]
  | compile design =>
      rw [newModel?, toOption_eq_some]
      simp only [Spares, and_true]
      exact (Session.compileStep design w.session).isAlive_iff id
  | compileBy k design =>
      rw [newModel?, toOption_eq_some]
      have hstep := ModelCompiler.compileStep (h.compilers k).idle design w.session
      exact Session.isAlive_compileBy (h.compilers k) hstep id
  | disposeBy k =>
      rw [Workshop.step, ModelCompiler.dispose_eq]
      simp only [newModel?, Spares, reduceCtorEq, false_or]
      exact Session.isAlive_release (w.compilers k) w.session id
  | resetBy k =>
      rw [Workshop.step, ModelCompiler.reset_eq]
      simp only [newModel?, Spares, reduceCtorEq, false_or]
      exact Session.isAlive_release (w.compilers k) w.session id
  | move id' move =>
      simp only [newModel?, Spares, reduceCtorEq, false_or, and_true]
      exact h.accounts.isAlive_visit id' (fun m => do return (Except.ok (), ← move.run m))
        (fun m stream hlength => Model.keeps_run hlength move stream) id
  | descend id' o gradients rate =>
      simp only [newModel?, Spares, reduceCtorEq, false_or, and_true]
      exact h.accounts.isAlive_visit id' (fun m => pure (Workshop.descend o gradients rate m))
        (fun m stream hlength => keeps_descend o gradients rate hlength) id
  | dispose id' =>
      simp only [newModel?, Spares, reduceCtorEq, false_or]
      exact (Session.disposeStep id' w.session).isAlive_iff
  | collect referred =>
      simp only [newModel?, Spares, reduceCtorEq, false_or]
      exact h.accounts.isAlive_collect referred id

/-! ## The counters -/

/-- After every run of events the counters are those of the models that are alive: as many tensors as their operators
have parameters, frozen weights and constants, and eight bytes for each entry of those.  Alive are the models that were
compiled until one is disposed of, its compiler lets go of it or it is collected.  The counts of a model are at all times
those of its compilation.  A compilation that fails leaves the memory as it is, but for the model that its compiler
let go of before; and as soon as the same models are alive again the counters are the same again. -/
theorem memory_of_alive (seed : Int) (isRead : Bool) (events : List (Event α)) :
    let w : Workshop α := (start seed isRead).run events
    w.session.memory.info = ⟨(w.session.alive.map fun p => p.2.tensorCount).sum,
      8 * (w.session.alive.map fun p => p.2.total + p.2.constantCount).sum⟩ ∧
    (∀ id m, (id, m) ∈ w.session.alive ↔ w.session.model? id = some m ∧ m.disposed = false) ∧
    (∀ event id, (w.step event).session.IsAlive id ↔
      w.newModel? event = some id ∨ w.session.IsAlive id ∧ w.Spares event id) ∧
    (∀ later id m m', w.session.model? id = some m → (w.run later).session.model? id = some m' →
      m'.tensorCount = m.tensorCount ∧ m'.total + m'.constantCount = m.total + m.constantCount) ∧
    (∀ design e, (Session.compile design w.session).1 = .error e →
      (Session.compile design w.session).2.memory = w.session.memory ∧
        (Session.compile design w.session).2.models = w.session.models) ∧
    (∀ k design e, ((w.compilers k).compile design w.session).1.1 = .error e →
      ((w.compilers k).compile design w.session).2.memory = ((w.compilers k).release w.session).2.memory) ∧
    ∀ later, (∀ id, (w.run later).session.IsAlive id ↔ w.session.IsAlive id) →
      (w.run later).session.memory.info = w.session.memory.info := by
  intro w
  have hkept : w.Kept := ((kept_start seed isRead).run events).1
  refine ⟨hkept.accounts.info_eq, fun id m => Session.mem_alive hkept.accounts.nodup, hkept.isAlive_step, ?counts, ?failure, ?compilers, ?baseline⟩
  case counts =>
    intro later id m m' hm hm'
    exact hkept.accounts.counts_eq (hkept.run later).2 hm hm'
  case failure =>
    intro design e he
    obtain ⟨hmemory, hmodels, _⟩ := (Session.compileStep design w.session).of_error he
    exact ⟨hmemory, hmodels⟩
  case compilers =>
    intro k design e he
    have hstep := ModelCompiler.compileStep (hkept.compilers k).idle design w.session
    exact Session.memory_compileBy_of_error (hkept.compilers k) hstep he
  case baseline =>
    intro later hsame
    obtain ⟨hkept', hfollows⟩ := hkept.run later
    exact hkept.accounts.info_congr hkept'.accounts hfollows hsame

end Workshop

end LayerStack
