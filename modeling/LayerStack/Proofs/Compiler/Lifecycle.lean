import LayerStack.Compiler
import LayerStack.Proofs.Session.Step

/-!
# LayerStack.Proofs.Compiler.Lifecycle

The life of a compiler.

The state of a compiler tells whether it has a model and whether it has an error (`ModelCompiler.Settled`), and every
call leaves it so.  Whichever of its models are disposed of behind its back, those it returned before the current one
are all disposed of (`Life.Sound`): a new compiler starts so, every act keeps it so, and so does a run of acts.
-/

namespace LayerStack

variable {α : Type}

/-! ## What a compiler does -/

namespace ModelCompiler

variable {c : ModelCompiler} {s : Session α} {design : Session.Design}

theorem release_of_none (h : c.model = none) : c.release s = (c, s) := by
  rw [release, h]
  rfl

theorem release_of_some {id : Identity} (h : c.model = some id) :
    c.release s = ({ c with model := none }, (Session.dispose id s).2) := by
  rw [release, h]
  rfl

theorem fst_release (c : ModelCompiler) (s : Session α) : (c.release s).1 = { c with model := none } := by
  cases hmodel : c.model with
  | none =>
      rw [release_of_none hmodel, ← hmodel]
  | some id => rw [release_of_some hmodel]

theorem compile_of_failed (h : c.state = .failed) (design : Session.Design) (s : Session α) :
    c.compile design s = ((.error (.run .compilerFailed), c), s) := by
  rw [compile, h]
  rfl

/-- A compiler that has not failed lets go of its model and compiles. -/
theorem compile_of_ready (h : c.state ≠ .failed) (h' : c.state ≠ .compiling) (design : Session.Design) (s : Session α) :
    c.compile design s = { c with model := none, state := .compiling }.settle design (c.release s).2 := by
  rw [compile]
  cases hstate : c.state with
  | failed | compiling => contradiction
  | uninitialized | compiled =>
      simp only [run_bind, fst_release]

/-- What compiling a design can come to: a compiler that has failed refuses it, and any other one lets go of its model and
fails or has a new one. -/
inductive CompileStep (c : ModelCompiler) (design : Session.Design) (s : Session α) :
    (Except Failure Identity × ModelCompiler) × Session α → Prop
  | refused (hstate : c.state = .failed) : CompileStep c design s ((.error (.run .compilerFailed), c), s)
  | failed {e : Failure} {s' : Session α} (hstate : c.state ≠ .failed)
    (h : Session.compile design (c.release s).2 = (.error e, s')) (log : Array LogEntry) :
    CompileStep c design s ((.error e, { state := .failed, model := none, lastError := some e }), { s' with log })
  | compiled {id : Identity} {s' : Session α} (hstate : c.state ≠ .failed)
    (h : Session.compile design (c.release s).2 = (.ok id, s')) :
    CompileStep c design s ((.ok id, { c with state := .compiled, model := some id }), s')

theorem compileStep (hidle : c.state ≠ .compiling) (design : Session.Design) (s : Session α) :
    CompileStep c design s (c.compile design s) := by
  by_cases hstate : c.state = .failed
  · rw [compile_of_failed hstate]
    exact .refused hstate
  · rw [compile_of_ready hstate hidle, settle, run_bind]
    cases hcompile : Session.compile design (c.release s).2 with
    | mk result s' =>
        cases result with
        | error e => exact .failed hstate hcompile _
        | ok id => exact .compiled hstate hcompile

theorem dispose_eq (c : ModelCompiler) (s : Session α) : c.dispose s =
    ({ c with model := none, state := if c.state = .compiled then .uninitialized else c.state },
      (c.release s).2) := by
  rw [dispose, run_bind, fst_release]
  rfl

theorem reset_eq (c : ModelCompiler) (s : Session α) : c.reset s =
    ({ state := .uninitialized, model := none, lastError := none }, (c.release s).2) := by
  rw [reset, run_bind, dispose_eq]
  rfl

/-! ## The state of a compiler -/

/-- The state of a compiler tells whether it has a model and whether it has an error. -/
structure Settled (c : ModelCompiler) : Prop where
  idle : c.state ≠ .compiling
  compiled : c.state = .compiled ↔ c.model.isSome
  failed : c.state = .failed ↔ c.lastError.isSome

theorem settled_new : Settled {} where
  idle := by simp
  compiled := by simp
  failed := by simp

/-- A compiler that has not failed has no error. -/
theorem Settled.lastError_eq_none (h : c.Settled) (hstate : c.state ≠ .failed) : c.lastError = none := by
  rw [ne_eq, h.failed, Bool.not_eq_true, Option.isSome_eq_false_iff, Option.isNone_iff_eq_none] at hstate
  exact hstate

/-- A compiler that has failed has no model. -/
theorem Settled.model_eq_none (h : c.Settled) (hstate : c.state = .failed) : c.model = none := by
  have hcompiled : c.state ≠ .compiled := by simp [hstate]
  rw [ne_eq, h.compiled, Bool.not_eq_true, Option.isSome_eq_false_iff, Option.isNone_iff_eq_none] at hcompiled
  exact hcompiled

theorem Settled.compile (h : c.Settled) {r : (Except Failure Identity × ModelCompiler) × Session α}
    (hstep : CompileStep c design s r) : r.1.2.Settled := by
  cases hstep with
  | refused => exact h
  | failed => exact ⟨by simp, by simp, by simp⟩
  | compiled hstate => exact ⟨by simp, by simp, by simp [h.lastError_eq_none hstate]⟩

theorem Settled.dispose (h : c.Settled) (s : Session α) : (c.dispose s).1.Settled := by
  rw [dispose_eq]
  by_cases hstate : c.state = .compiled
  · have hnone := h.lastError_eq_none (by simp [hstate])
    exact ⟨by simp [hstate], by simp [hstate], by simp [hstate, hnone]⟩
  · have hfailed := h.failed
    exact ⟨by simp [hstate, h.idle], by simp [hstate], by simpa [hstate] using hfailed⟩

end ModelCompiler

/-! ## Lives -/

/-- A compiler in a session, and the models it has returned. -/
structure Life (α : Type) where
  session : Session α
  compiler : ModelCompiler := {}
  returned : List Identity := []

namespace Life

/-- What can be asked of a compiler, or done behind its back to a model that it has returned. -/
inductive Act where
  | compile (design : Session.Design)
  | dispose
  | reset
  | disposeModel (id : Identity)

/-- A life after one more act. -/
def step (l : Life α) : Act → Life α
  | .compile design =>
    let ((result, compiler), session) := l.compiler.compile design l.session
    { session, compiler, returned := result.toOption.toList ++ l.returned }
  | .dispose =>
    let (compiler, session) := l.compiler.dispose l.session
    { l with session, compiler }
  | .reset =>
    let (compiler, session) := l.compiler.reset l.session
    { l with session, compiler }
  | .disposeModel id => if id ∈ l.returned then { l with session := (Session.dispose id l.session).2 } else l

/-- A life after some acts. -/
def run (l : Life α) (acts : List Act) : Life α := acts.foldl step l

/-- A compiler is settled, and of the models it has returned all but the current one are disposed of. -/
structure Sound (l : Life α) : Prop where
  compiler : l.compiler.Settled
  known : ∀ id ∈ l.returned, id < l.session.next
  kept : ∀ id, l.compiler.model = some id → id ∈ l.returned ∧ (l.session.model? id).isSome
  others : ∀ id ∈ l.returned, l.compiler.model ≠ some id → l.session.IsDisposed id

variable {l : Life α}

/-- After letting go of its model, all models that a compiler has returned are disposed of. -/
theorem Sound.isDisposed_release (h : l.Sound) :
    ∀ id ∈ l.returned, (l.compiler.release l.session).2.IsDisposed id := by
  intro id hid
  cases hmodel : l.compiler.model with
  | none =>
      have hother : l.compiler.model ≠ some id := by simp [hmodel]
      rw [ModelCompiler.release_of_none hmodel]
      exact h.others id hid hother
  | some current =>
      rw [ModelCompiler.release_of_some hmodel]
      by_cases hid' : current = id
      · obtain ⟨m, hm⟩ := Option.isSome_iff_exists.mp (h.kept current hmodel).2
        rw [hid'] at hm ⊢
        exact (Session.disposeStep id l.session).isDisposed_self hm
      · have hother : l.compiler.model ≠ some id := fun heq => hid' (Option.some.inj (hmodel.symm.trans heq))
        exact (Session.disposeStep current l.session).isDisposed (h.others id hid hother)

theorem next_release (c : ModelCompiler) (s : Session α) : (c.release s).2.next = s.next := by
  cases hmodel : c.model with
  | none => rw [ModelCompiler.release_of_none hmodel]
  | some id =>
      rw [ModelCompiler.release_of_some hmodel]
      exact (Session.disposeStep id s).next

/-- A compiler that let go of its model is sound while it has no other one. -/
theorem Sound.released (h : l.Sound) {c : ModelCompiler} {s : Session α} (hsettled : c.Settled) (hmodel : c.model = none)
    (hnext : s.next = l.session.next) (hmodels : s.models = (l.compiler.release l.session).2.models) :
    Sound { session := s, compiler := c, returned := l.returned } where
  compiler := hsettled
  known := by
    intro id hid
    rw [hnext]
    exact h.known id hid
  kept := by simp [hmodel]
  others := by
    intro id hid _
    rw [Session.IsDisposed, Session.model?, hmodels]
    exact h.isDisposed_release id hid

/-- A compiler that let go of its model is sound with a new one, which it returns. -/
theorem Sound.enrolled (h : l.Sound) {c : ModelCompiler} {s : Session α} {id : Identity} {m : Model α}
    (hsettled : c.Settled) (hmodel : c.model = some id) (hid : id = l.session.next) (hnext : s.next = id + 1)
    (hmodels : s.models = (id, m) :: (l.compiler.release l.session).2.models) :
    Sound { session := s, compiler := c, returned := id :: l.returned } where
  compiler := hsettled
  known := by
    intro id' hid'
    rw [hnext, hid]
    rcases List.mem_cons.mp hid' with rfl | hid'
    · exact hid ▸ Nat.lt_succ_self _
    · exact Nat.lt_succ_of_lt (h.known id' hid')
  kept := by
    intro id' hid'
    obtain rfl : id = id' := Option.some.inj (hmodel.symm.trans hid')
    have hlookup : s.model? id = some m := by rw [Session.model?, hmodels, List.lookup_cons_self]
    exact ⟨List.mem_cons_self, Option.isSome_iff_exists.mpr ⟨m, hlookup⟩⟩
  others := by
    intro id' hid' hother
    rcases List.mem_cons.mp hid' with rfl | hid'
    · exact absurd hmodel hother
    · have hne : (id' == id) = false := by
        rw [beq_eq_false_iff_ne, hid]
        exact Nat.ne_of_lt (h.known id' hid')
      rw [Session.IsDisposed, Session.model?, hmodels, List.lookup_cons, hne]
      exact h.isDisposed_release id' hid'

/-- Compiling keeps a life sound, whatever becomes of the design. -/
theorem Sound.compile (h : l.Sound) (design : Session.Design) : (l.step (.compile design)).Sound := by
  have hnext : (l.compiler.release l.session).2.next = l.session.next := next_release l.compiler l.session
  have hstep := ModelCompiler.compileStep h.compiler.idle design l.session
  have hsettled := h.compiler.compile hstep
  rw [step]
  generalize l.compiler.compile design l.session = r at hstep hsettled ⊢
  cases hstep with
  | refused => exact h
  | failed _ hfailed log =>
      cases Session.compileStep_of_eq hfailed with
      | failed => exact h.released hsettled rfl hnext rfl
  | compiled _ hcompiled =>
      cases Session.compileStep_of_eq hcompiled with
      | compiled => exact h.enrolled hsettled rfl hnext rfl rfl

theorem Sound.dispose (h : l.Sound) : (l.step .dispose).Sound := by
  have hsettled := h.compiler.dispose l.session
  rw [ModelCompiler.dispose_eq] at hsettled
  rw [step, ModelCompiler.dispose_eq]
  exact h.released hsettled rfl (next_release _ _) rfl

theorem Sound.reset (h : l.Sound) : (l.step .reset).Sound := by
  rw [step, ModelCompiler.reset_eq]
  exact h.released ModelCompiler.settled_new rfl (next_release _ _) rfl

/-- Disposing of a model behind the back of its compiler leaves the compiler as it is. -/
theorem Sound.disposeModel (h : l.Sound) (id : Identity) : (l.step (.disposeModel id)).Sound := by
  rw [step]
  split
  · next hmem =>
      have hstep := Session.disposeStep id l.session
      exact {
        compiler := h.compiler
        known := by
          intro id' hid'
          rw [hstep.next]
          exact h.known id' hid'
        kept := by
          intro id' hid'
          obtain ⟨hmem', hsome⟩ := h.kept id' hid'
          exact ⟨hmem', hstep.isSome_model? hsome⟩
        others := fun id' hid' hother => hstep.isDisposed (h.others id' hid' hother) }
  · exact h

theorem Sound.step (h : l.Sound) (act : Act) : (l.step act).Sound := by
  cases act with
  | compile design => exact h.compile design
  | dispose => exact h.dispose
  | reset => exact h.reset
  | disposeModel id => exact h.disposeModel id

theorem Sound.run (h : l.Sound) (acts : List Act) : (l.run acts).Sound := by
  induction acts generalizing l with
  | nil => exact h
  | cons act acts ih => exact ih (h.step act)

/-- A new compiler in any session. -/
def start (s : Session α) : Life α := { session := s }

theorem sound_start (s : Session α) : (start s).Sound where
  compiler := ModelCompiler.settled_new
  known := by simp [start]
  kept := by simp [start]
  others := by simp [start]

/-! ## The lifecycle -/

/-- Nothing but a reset takes a compiler out of its failure. -/
theorem state_step_of_failed (hfailed : l.compiler.state = .failed) {act : Act} (hact : act ≠ .reset) :
    (l.step act).compiler.state = .failed := by
  cases act with
  | compile design =>
      rw [Life.step, ModelCompiler.compile_of_failed hfailed]
      exact hfailed
  | dispose =>
      rw [Life.step, ModelCompiler.dispose_eq]
      simp [hfailed]
  | reset => contradiction
  | disposeModel id =>
      rw [Life.step]
      split <;> exact hfailed

/-- A compiler that has not failed does what compiling without it does, in the session without its model, and keeps what
comes of it. -/
theorem Sound.compile_of_ready (h : l.Sound) (hready : l.compiler.state ≠ .failed) (design : Session.Design) :
    let result := (Session.compile design (l.compiler.release l.session).2).1
    let l' := l.step (.compile design)
    (l.compiler.compile design l.session).1.1 = result ∧
      (∀ id, result = .ok id → l'.compiler.state = .compiled ∧ l'.compiler.model = some id ∧ l'.session.IsAlive id) ∧
      ∀ e, result = .error e → l'.compiler.state = .failed ∧ l'.compiler.lastError = some e := by
  have hstep := ModelCompiler.compileStep h.compiler.idle design l.session
  simp only [Life.step]
  generalize l.compiler.compile design l.session = r at hstep ⊢
  cases hstep with
  | refused hstate => contradiction
  | failed _ hfailed log =>
      rw [hfailed]
      refine ⟨rfl, nofun, fun e he => ?_⟩
      obtain rfl := Except.error.inj he
      exact ⟨rfl, rfl⟩
  | compiled _ hcompiled =>
      rw [hcompiled]
      refine ⟨rfl, fun id hid => ?_, nofun⟩
      obtain rfl := Except.ok.inj hid
      exact ⟨rfl, rfl, ((Session.compileStep_of_eq hcompiled).isAlive_iff _).mpr (.inl rfl)⟩

/-- After every run of acts a new compiler is uninitialized, compiled or failed.  It is compiled exactly where it has a
model, and has an error exactly where it failed.  Every model it returned but the current one is disposed of, so at most
one is alive.  A compiler that has not failed has the model of the design it compiles, alive, or has failed with the error
of that.  One that has failed refuses every design and nothing changes by that, and only a reset makes it anew. -/
theorem lifecycle (s : Session α) (acts : List Act) :
    let l := (start s).run acts
    (l.compiler.state = .uninitialized ∨ l.compiler.state = .compiled ∨ l.compiler.state = .failed) ∧
    (l.compiler.state = .compiled ↔ l.compiler.model.isSome) ∧
    (l.compiler.lastError.isSome ↔ l.compiler.state = .failed) ∧
    (∀ id ∈ l.returned, l.compiler.model ≠ some id → l.session.IsDisposed id) ∧
    (∀ id ∈ l.returned, ∀ id' ∈ l.returned, l.session.IsAlive id → l.session.IsAlive id' → id = id') ∧
    (l.compiler.state ≠ .failed → ∀ design,
      let result := (Session.compile design (l.compiler.release l.session).2).1
      let l' := l.step (.compile design)
      (l.compiler.compile design l.session).1.1 = result ∧
        (∀ id, result = .ok id → l'.compiler.state = .compiled ∧ l'.compiler.model = some id ∧ l'.session.IsAlive id) ∧
        ∀ e, result = .error e → l'.compiler.state = .failed ∧ l'.compiler.lastError = some e) ∧
    (l.compiler.state = .failed →
      (∀ design, l.compiler.compile design l.session = ((.error (.run .compilerFailed), l.compiler), l.session)) ∧
      RunError.compilerFailed.errorClass = .modelState ∧
      (∀ act, act ≠ .reset → (l.step act).compiler.state = .failed) ∧
      (l.step .reset).compiler.state = .uninitialized) := by
  intro l
  have hsound : l.Sound := (sound_start s).run acts
  have hcurrent {id : Identity} (hid : id ∈ l.returned) (halive : l.session.IsAlive id) :
      l.compiler.model = some id := by
    by_contra hother
    exact Session.not_isAlive_of_isDisposed (hsound.others id hid hother) halive
  refine ⟨?state, hsound.compiler.compiled, hsound.compiler.failed.symm, hsound.others, ?unique,
    hsound.compile_of_ready, fun hfailed => ?failure⟩
  case state =>
    have hidle := hsound.compiler.idle
    cases hstate : l.compiler.state with
    | uninitialized | compiled | failed => simp
    | compiling => contradiction
  case unique =>
    intro id hid id' hid' halive halive'
    exact Option.some.inj ((hcurrent hid halive).symm.trans (hcurrent hid' halive'))
  case failure =>
    refine ⟨fun design => ModelCompiler.compile_of_failed hfailed design l.session, rfl,
      fun act hact => state_step_of_failed hfailed hact, ?_⟩
    rw [Life.step, ModelCompiler.reset_eq]

end Life

end LayerStack
