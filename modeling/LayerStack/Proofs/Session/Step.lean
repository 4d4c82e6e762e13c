import LayerStack.Proofs.Session.Compile

/-!
# LayerStack.Proofs.Session.Step

What one operation can do to the models of a session and to the memory they hold.

A compilation fails and leaves both as they are, or takes in a model under the next identity (`CompileStep`).  Disposing
of a model does nothing where there is none that is alive, and else marks that one and forgets what it holds
(`DisposeStep`).  Nothing but these two and a collection touches the memory.
-/

namespace LayerStack

variable {α : Type}

/-- A list of operators that was built has one for every layer. -/
theorem OperatorBuilders.length_of_build {b : OperatorBuilders α} {layers : List ResolvedLayer}
    {operators : List (Operator α)} {stream : Stream} (h : (b.build layers stream).1 = .ok operators) :
    operators.length = layers.length := by
  induction layers generalizing operators stream with
  | nil =>
      obtain rfl := Except.ok.inj h
      rfl
  | cons layer layers ih =>
      rcases hbuild : b.build (layer :: layers) stream with ⟨result, after⟩
      rw [hbuild] at h
      obtain rfl : result = .ok operators := h
      obtain ⟨_, o, tail, _, _, _, hrest, rfl⟩ := Session.build_cons_eq_ok hbuild
      rw [List.length_cons, List.length_cons, ih (congrArg Prod.fst hrest)]

namespace Session

variable {s s' : Session α} {m : Model α} {id id' : Identity} {models : List (Identity × Model α)}

/-! ## Models under identities -/

theorem replace_cons (i : Identity) (old : Model α) :
    replace id m ((i, old) :: models) = (i, if i = id then m else old) :: replace id m models := by
  rw [replace, List.map_cons]
  by_cases hi : i = id
  · simp only [if_pos hi]
    rfl
  · simp only [if_neg hi]
    rfl

@[simp] theorem map_fst_replace : (replace id m models).map (·.1) = models.map (·.1) := by
  induction models with
  | nil => rfl
  | cons p models ih =>
      rw [replace_cons, List.map_cons, List.map_cons, ih]

theorem lookup_replace_self {m' : Model α} (h : models.lookup id = some m) :
    (replace id m' models).lookup id = some m' := by
  induction models with
  | nil => contradiction
  | cons p models ih =>
      obtain ⟨i, old⟩ := p
      rw [replace_cons]
      by_cases hi : i = id
      · rw [if_pos hi, hi, List.lookup_cons_self]
      · have hne : (id == i) = false := beq_eq_false_iff_ne.mpr (Ne.symm hi)
        rw [List.lookup_cons, hne] at h
        rw [List.lookup_cons, hne]
        exact ih h

theorem lookup_replace_of_ne (h : id' ≠ id) : (replace id m models).lookup id' = models.lookup id' := by
  induction models with
  | nil => rfl
  | cons p models ih =>
      obtain ⟨i, old⟩ := p
      rw [replace_cons, List.lookup_cons, List.lookup_cons, ih]
      cases hi : id' == i with
      | true =>
          have hne : i ≠ id := fun h' => h ((beq_iff_eq.mp hi).trans h')
          rw [if_neg hne]
      | false => rfl

/-- Is there a model under an identity, and not disposed of? -/
def IsAlive (s : Session α) (id : Identity) : Prop := ∃ m, s.model? id = some m ∧ m.disposed = false

/-! ## Compilation -/

/-- What a compilation can come to. -/
inductive CompileStep (design : Design) (s : Session α) : Except Failure Identity × Session α → Prop
  | failed (e : Failure) (log : Array LogEntry) (stream : Stream) :
    CompileStep design s (.error e, { s with log, stream })
  | compiled {plan : ShapePlan} {operators : List (Operator α)} (hplan : analysis design = .ok plan)
    (hlength : operators.length = plan.layers.length) (log : Array LogEntry) (stream : Stream) :
    CompileStep design s (.ok s.next, { s with
      log, stream
      next := s.next + 1
      models := (s.next, { plan, operators }) :: s.models
      memory := s.memory.track s.next ((Model.owned { plan, operators }).map some) })

theorem compileStep (design : Design) (s : Session α) : CompileStep design s (compile design s) := by
  cases hplan : analysis design with
  | error e =>
      obtain ⟨log, hcompile⟩ := compile_of_analysis_error (s := s) hplan
      rw [hcompile]
      exact .failed (.analysis e) log s.stream
  | ok plan =>
      cases hbuild : s.builders.build plan.layers s.stream with
      | mk result stream =>
          cases result with
          | error e =>
              obtain ⟨log, hcompile⟩ := compile_of_build_error hplan hbuild
              rw [hcompile]
              exact .failed e log stream
          | ok operators =>
              obtain ⟨log, hcompile⟩ := compile_enrolls hplan hbuild
              have hlength : operators.length = plan.layers.length :=
                OperatorBuilders.length_of_build (congrArg Prod.fst hbuild)
              rw [hcompile]
              exact .compiled hplan hlength log stream

theorem compileStep_of_eq {design : Design} {r : Except Failure Identity × Session α} (h : compile design s = r) :
    CompileStep design s r := h ▸ compileStep design s

/-- Compiling a design makes the model it returns alive, and changes that of no other one. -/
theorem CompileStep.isAlive_iff {design : Design} {r : Except Failure Identity × Session α}
    (h : CompileStep design s r) (id : Identity) : r.2.IsAlive id ↔ r.1 = .ok id ∨ s.IsAlive id := by
  cases h with
  | failed e log stream => exact ⟨.inr, fun h => h.resolve_left nofun⟩
  | @compiled plan operators hplan hlength log stream =>
      rw [IsAlive, model?, List.lookup_cons]
      by_cases hid : id = s.next
      · rw [beq_iff_eq.mpr hid]
        exact ⟨fun _ => .inl (by rw [hid]), fun _ => ⟨{ plan, operators }, rfl, rfl⟩⟩
      · have hne : (Except.ok s.next : Except Failure Identity) ≠ .ok id := fun heq => hid (Except.ok.inj heq).symm
        rw [beq_eq_false_iff_ne.mpr hid]
        exact ⟨.inr, fun h => h.resolve_left hne⟩

/-! ## The end of a model -/

/-- What disposing of a model can come to. -/
inductive DisposeStep (id : Identity) (s : Session α) : Session α → Prop
  | idle (h : ¬ s.IsAlive id) : DisposeStep id s s
  | disposed {m : Model α} (hmodel : s.model? id = some m) (halive : m.disposed = false) (log : Array LogEntry) :
    DisposeStep id s { s with
      log
      memory := s.memory.forget id
      models := replace id m.dispose s.models }

theorem dispose_of_not_isAlive (h : ¬ s.IsAlive id) : (dispose id s).2 = s := by
  rw [dispose, run_bind, run_get]
  cases hmodel : s.model? id with
  | none => rfl
  | some m =>
      have hdisposed : m.disposed = true := by
        by_contra halive
        exact h ⟨m, hmodel, Bool.eq_false_iff.mpr halive⟩
      simp only [hdisposed]
      rfl

theorem dispose_of_alive (hmodel : s.model? id = some m) (halive : m.disposed = false) :
    ∃ log, (dispose id s).2 = { s with
      log
      memory := s.memory.forget id
      models := replace id m.dispose s.models } := by
  rw [dispose, run_bind, run_get]
  simp only [hmodel, halive]
  exact ⟨_, rfl⟩

theorem disposeStep (id : Identity) (s : Session α) : DisposeStep id s (dispose id s).2 := by
  by_cases h : s.IsAlive id
  · obtain ⟨m, hmodel, halive⟩ := h
    obtain ⟨log, hdispose⟩ := dispose_of_alive hmodel halive
    rw [hdispose]
    exact .disposed hmodel halive log
  · rw [dispose_of_not_isAlive h]
    exact .idle h

/-- Was a model disposed of that is still under its identity? -/
def IsDisposed (s : Session α) (id : Identity) : Prop := ∃ m, s.model? id = some m ∧ m.disposed = true

theorem not_isAlive_of_isDisposed (h : s.IsDisposed id) : ¬ s.IsAlive id := by
  intro ⟨m', hmodel', halive⟩
  obtain ⟨m, hmodel, hdisposed⟩ := h
  obtain rfl : m = m' := Option.some.inj (hmodel.symm.trans hmodel')
  rw [halive] at hdisposed
  contradiction

/-- A model that was disposed of stays so. -/
theorem DisposeStep.isDisposed (h : DisposeStep id' s s') (hdisposed : s.IsDisposed id) : s'.IsDisposed id := by
  have hnot : ¬ s.IsAlive id := not_isAlive_of_isDisposed hdisposed
  cases h with
  | idle => exact hdisposed
  | disposed hmodel' halive log =>
      have hne : id ≠ id' := fun heq => hnot ⟨_, heq ▸ hmodel', halive⟩
      obtain ⟨m, hmodel, hm⟩ := hdisposed
      exact ⟨m, (lookup_replace_of_ne hne).trans hmodel, hm⟩

/-- Disposing of a model ends that one and no other. -/
theorem DisposeStep.isAlive_iff (h : DisposeStep id' s s') : s'.IsAlive id ↔ s.IsAlive id ∧ id ≠ id' := by
  cases h with
  | idle hnot => exact ⟨fun halive => ⟨halive, fun heq => hnot (heq ▸ halive)⟩, And.left⟩
  | @disposed m hmodel halive log =>
      rw [IsAlive, model?]
      by_cases hid : id = id'
      · rw [hid, lookup_replace_self hmodel]
        constructor
        · rintro ⟨m', hm', halive'⟩
          obtain rfl := Option.some.inj hm'
          contradiction
        · exact fun h => absurd rfl h.2
      · rw [lookup_replace_of_ne hid]
        exact ⟨fun h => ⟨h, hid⟩, And.left⟩

theorem DisposeStep.isDisposed_self (h : DisposeStep id s s') (hmodel : s.model? id = some m) : s'.IsDisposed id := by
  cases h with
  | idle hnot =>
      cases hm : m.disposed with
      | true => exact ⟨m, hmodel, hm⟩
      | false => exact absurd ⟨m, hmodel, hm⟩ hnot
  | disposed hmodel' _ log => exact ⟨_, lookup_replace_self hmodel', rfl⟩

/-- There is a model where there was one. -/
theorem DisposeStep.isSome_model? (h : DisposeStep id' s s') (hsome : (s.model? id).isSome) : (s'.model? id).isSome := by
  cases h with
  | idle => exact hsome
  | @disposed m hmodel halive log =>
      by_cases hid : id = id'
      · have hlookup : (replace id' m.dispose s.models).lookup id' = some m.dispose := lookup_replace_self hmodel
        rw [hid, model?, hlookup]
        rfl
      · rw [model?, lookup_replace_of_ne hid]
        exact hsome

theorem DisposeStep.next (h : DisposeStep id s s') : s'.next = s.next := by
  cases h with
  | idle | disposed => rfl

end Session

end LayerStack
