import LayerStack.Proofs.Model.Owned
import LayerStack.Proofs.Operator.Layout
import LayerStack.Proofs.Session.Step

/-!
# LayerStack.Proofs.Session.Blueprint

What a session has no part in when a design is compiled.

A compilation looks at the builders and the stream of its session and at nothing else: it enrols the model of the
design's blueprint, or fails as that does (`compile_eq_blueprint`).  Of steady builders not even the stream matters for
whether it fails, nor for the plan and the counts of the model (`outline_blueprint`).
-/

namespace LayerStack

variable {α : Type}

namespace Model

/-- The plan of a model, and how many of its entries training moves and how many there are. -/
def outline (m : Model α) : ShapePlan × Nat × Nat := (m.plan, m.trainable, m.total)

theorem outline_congr {m m' : Model α} (hplan : m.plan = m'.plan)
    (hlayouts : m.operators.map Operator.layout = m'.operators.map Operator.layout) : m.outline = m'.outline := by
  have hsum (count : Entries String Dims × Entries String Dims × Entries String Dims → Nat) :
      (m.operators.map fun o => count o.layout).sum = (m'.operators.map fun o => count o.layout).sum := by
    have hcounts := congrArg (fun layouts => (layouts.map count).sum) hlayouts
    simpa only [List.map_map, Function.comp_def] using hcounts
  rw [outline, outline, hplan, trainable_eq, trainable_eq, total_eq, total_eq, funext Operator.trainableCount_eq,
    funext Operator.totalCount_eq, hsum fun layout => Operator.entriesOn layout.1,
    hsum fun layout => Operator.entriesOn layout.1 + Operator.entriesOn layout.2.1]

end Model

namespace Session

/-- The model that builders make of a design with the random numbers of a stream. -/
def blueprint (b : OperatorBuilders α) (design : Design) (stream : Stream) : Except Failure (Model α) :=
  match analysis design with
  | .error e => .error (.analysis e)
  | .ok plan => (b.build plan.layers stream).1.map fun operators => { plan, operators }

/-- A compilation enrols the model of the blueprint, or fails as it does. -/
theorem compile_eq_blueprint (design : Design) (s : Session α) :
    (compile design s).1 = (blueprint s.builders design s.stream).map (fun _ => s.next) ∧
      ∀ m, blueprint s.builders design s.stream = .ok m → (compile design s).2.model? s.next = some m := by
  cases hplan : analysis design with
  | error e =>
      obtain ⟨log, hcompile⟩ := compile_of_analysis_error (s := s) hplan
      have hblueprint : blueprint s.builders design s.stream = .error (.analysis e) := by rw [blueprint, hplan]
      rw [hcompile, hblueprint]
      exact ⟨rfl, nofun⟩
  | ok plan =>
      rcases hbuild : s.builders.build plan.layers s.stream with ⟨e | operators, stream⟩
      · obtain ⟨log, hcompile⟩ := compile_of_build_error hplan hbuild
        have hblueprint : blueprint s.builders design s.stream = .error e := by
          simp only [blueprint, hplan, hbuild]
          rfl
        rw [hcompile, hblueprint]
        exact ⟨rfl, nofun⟩
      · obtain ⟨log, memory, hcompile⟩ := compile_of_build hplan hbuild
        have hblueprint : blueprint s.builders design s.stream = .ok { plan, operators } := by
          simp only [blueprint, hplan, hbuild]
          rfl
        rw [hcompile, hblueprint]
        refine ⟨rfl, fun m hm => ?_⟩
        obtain rfl := Except.ok.inj hm
        exact List.lookup_cons_self

/-- Fresh models are alive. -/
theorem disposed_of_blueprint {b : OperatorBuilders α} {design : Design} {stream : Stream} {m : Model α}
    (h : blueprint b design stream = .ok m) : m.disposed = false := by
  rw [blueprint] at h
  split at h
  · contradiction
  · obtain ⟨operators, _, rfl⟩ := map_eq_ok.mp h
    rfl

/-- Random numbers have no part in whether steady builders fail, nor in the plan and the counts of what they make. -/
theorem outline_blueprint {b : OperatorBuilders α} (h : b.Steady) (design : Design) (stream stream' : Stream) :
    (blueprint b design stream).map Model.outline = (blueprint b design stream').map Model.outline := by
  simp only [blueprint]
  cases analysis design with
  | error e => rfl
  | ok plan =>
      refine map_eq_map.mpr ?_
      obtain ⟨e, hbuild, hbuild'⟩ | ⟨os, os', hbuild, hbuild', hlayouts⟩ :=
        map_eq_map.mp (h.layouts plan.layers stream stream')
      · exact .inl ⟨e, by simp only [hbuild]; rfl, by simp only [hbuild']; rfl⟩
      · exact .inr ⟨{ plan, operators := os }, { plan, operators := os' }, by simp only [hbuild]; rfl,
          by simp only [hbuild']; rfl, Model.outline_congr rfl hlayouts⟩

/-- Of the stock builders no blueprint fails over the state of a model or of a compiler. -/
theorem errorClass_blueprint [Scalar α] {design : Design} {stream : Stream} {e : RunError}
    (h : blueprint (.stock : OperatorBuilders α) design stream = .error (.run e)) : e.errorClass ≠ .modelState := by
  cases hplan : analysis design with
  | error e' =>
      rw [blueprint, hplan] at h
      cases h
  | ok plan =>
      simp only [blueprint, hplan] at h
      rcases build_of_analysis (α := α) hplan stream with ⟨operators, hbuild, _⟩ | hbuild
      · rw [hbuild] at h
        cases h
      · rw [hbuild] at h
        obtain rfl : RunError.tooLarge = e := Failure.run.inj (Except.error.inj h)
        decide

end Session

end LayerStack
