import LayerStack.Proofs.Operator.Made
import LayerStack.Proofs.Shape.Fault
import LayerStack.Scalar.Mixed
import LayerStack.Session

/-!
# LayerStack.Proofs.Session.Compile

Compilation fails only where the analysis does.

What a compilation comes to is said once, in three parts: the analysis fails, the builders fail, or there is a new model
(`compile_of_analysis_error`, `compile_of_build_error`, `compile_of_build`).  With the stock builders the second part
leaves one cause only, numbers that are too large (`build_stock`): fans past the doubles, or a product of lengths that has
wrapped below zero.  So every error of a design that a compilation reports is one that the analysis reports.
-/

namespace LayerStack.Session

variable {α : Type}

/-! ## What a compilation comes to -/

/-- The analysis of a design: its records, and then its plan. -/
def analysis (design : Design) : Analysis ShapePlan := do
  ShapePlan.ofRecords (← Analysis.ofDesign design)

variable {design : Design} {s : Session α} {plan : ShapePlan}

/-- Planning a design analyses it; but for the log nothing changes. -/
theorem plan_eq (design : Design) (s : Session α) : ∃ log, Session.plan design s = (analysis design, { s with log }) := by
  cases design with
  | error e => exact ⟨s.log, rfl⟩
  | ok records =>
      simp only [Session.plan]
      cases ShapePlan.promotion? records with
      | none => exact ⟨s.log, rfl⟩
      | some shapes => exact ⟨_, rfl⟩

theorem run_draw {β : Type} (d : Draw β) (s : Session α) :
    draw d s = ((d s.stream).1, { s with stream := (d s.stream).2 }) := rfl

theorem compile_of_analysis_error {e : AnalysisError} (h : analysis design = .error e) :
    ∃ log, compile design s = (.error (.analysis e), { s with log }) := by
  obtain ⟨log, hplan⟩ := plan_eq design s
  refine ⟨log, ?_⟩
  rw [compile, run_bind, hplan, h]
  rfl

theorem compile_of_build_error (h : analysis design = .ok plan) {e : Failure} {stream : Stream}
    (hbuild : s.builders.build plan.layers s.stream = (.error e, stream)) :
    ∃ log, compile design s = (.error e, { s with log, stream }) := by
  obtain ⟨log, hplan⟩ := plan_eq design s
  refine ⟨log, ?_⟩
  rw [compile, run_bind, hplan, h]
  simp only [run_bind, run_get, run_draw, hbuild]
  rfl

/-- Operators for the layers of a plan make a new model under the next identity, and its tensors are tracked. -/
theorem compile_enrolls (h : analysis design = .ok plan) {operators : List (Operator α)} {stream : Stream}
    (hbuild : s.builders.build plan.layers s.stream = (.ok operators, stream)) :
    ∃ log, compile design s = (.ok s.next, { s with
      log, stream
      next := s.next + 1
      models := (s.next, { plan, operators }) :: s.models
      memory := s.memory.track s.next ((Model.owned { plan, operators }).map some) }) := by
  obtain ⟨log, hplan⟩ := plan_eq design s
  rw [compile, run_bind, hplan, h]
  simp only [run_bind, run_get, run_draw, hbuild]
  exact ⟨_, rfl⟩

theorem compile_of_build (h : analysis design = .ok plan) {operators : List (Operator α)} {stream : Stream}
    (hbuild : s.builders.build plan.layers s.stream = (.ok operators, stream)) :
    ∃ log memory, compile design s = (.ok s.next, { s with
      log, memory, stream
      next := s.next + 1
      models := (s.next, { plan, operators }) :: s.models }) := by
  obtain ⟨log, hcompile⟩ := compile_enrolls h hbuild
  exact ⟨log, _, hcompile⟩

/-- A model that came of a compilation has the plan of the analysis and the operators that the builders made for it, and
it is alive. -/
theorem built_of_compile {id : Identity} {m : Model α} (hcompile : (compile design s).1 = .ok id)
    (hmodel : (compile design s).2.model? id = some m) :
    analysis design = .ok m.plan ∧ s.builders.build m.plan.layers s.stream = (.ok m.operators, (compile design s).2.stream) ∧
      m.disposed = false := by
  cases hplan : analysis design with
  | error e =>
      obtain ⟨log, hfailed⟩ := compile_of_analysis_error (s := s) hplan
      rw [hfailed] at hcompile
      contradiction
  | ok plan =>
      rcases hbuild : s.builders.build plan.layers s.stream with ⟨e | operators, stream⟩
      · obtain ⟨log, hfailed⟩ := compile_of_build_error hplan hbuild
        rw [hfailed] at hcompile
        contradiction
      · obtain ⟨log, memory, hbuilt⟩ := compile_of_build hplan hbuild
        rw [hbuilt] at hcompile hmodel ⊢
        obtain rfl : s.next = id := Except.ok.inj hcompile
        simp only [model?, List.lookup_cons, beq_self_eq_true] at hmodel
        obtain rfl := Option.some.inj hmodel
        exact ⟨rfl, hbuild, rfl⟩

/-- Where operators are built for some layers, the first one is built, and then the others from the random state that it
left. -/
theorem build_cons_eq_ok {b : OperatorBuilders α} {layer : ResolvedLayer} {layers : List ResolvedLayer}
    {os : List (Operator α)} {before after : Stream} (h : b.build (layer :: layers) before = (.ok os, after)) :
    ∃ builder o tail stream, b.lookup layer.type.tag = some builder ∧
      builder layer.config layer.input before = (.ok o, stream) ∧ b.build layers stream = (.ok tail, after) ∧
      o :: tail = os := by
  have hos := congrArg Prod.fst h
  rw [OperatorBuilders.build] at h hos
  cases hlookup : b.lookup layer.type.tag with
  | none =>
      rw [hlookup] at hos
      contradiction
  | some builder =>
      simp only [hlookup, run_bind] at h hos
      rcases hfirst : builder layer.config layer.input before with ⟨e | o, stream⟩
      · rw [hfirst] at hos
        cases e <;> contradiction
      · simp only [hfirst, run_bind] at h hos
        rcases hrest : b.build layers stream with ⟨e | tail, last⟩
        · rw [hrest] at hos
          contradiction
        · rw [hrest] at h
          obtain ⟨hos, rfl⟩ := Prod.mk.inj h
          exact ⟨builder, o, tail, stream, rfl, hfirst, hrest, Except.ok.inj hos⟩

/-- The layers of a design's plan are sound, in a row from the shape the plan starts from. -/
theorem chained_of_analysis (h : analysis design = .ok plan) :
    ShapePlan.Opens plan.declared plan.input ∧ ShapePlan.Chained 1 plan.input plan.layers := by
  simp only [analysis, bind_eq_ok] at h
  obtain ⟨records, _, h⟩ := h
  exact ShapePlan.chained_of_ofRecords h

/-! ## The stock builders -/

section Stock

variable [Scalar α]

/-- There is a builder for every layer after the input. -/
theorem lookup_stock {t : LayerType} (ht : t ≠ .input) :
    (OperatorBuilders.stock : OperatorBuilders α).lookup t.tag = some LayerConfig.build := by
  cases t with
  | input => exact absurd rfl ht
  | dense | conv2d | maxpool2d | dropout | flatten | output | embedding | multiHeadAttention | layerNorm
  | positionalEncoding | transformerBlock | globalAvgPool1d => rfl

/-- The stock builders make operators for the layers of a plan, or stop at lengths that are too large. -/
theorem build_stock {index : Nat} {shape : Shape} {layers : List ResolvedLayer}
    (h : ShapePlan.Chained index shape layers) (hwide : shape.Wide) (stream : Stream) :
    (∃ operators : List (Operator α), (OperatorBuilders.stock.build layers stream).1 = .ok operators ∧
        Operator.AllMade layers operators) ∨
      ((OperatorBuilders.stock : OperatorBuilders α).build layers stream).1 = .error (.run .tooLarge) := by
  induction h generalizing stream with
  | nil => exact .inl ⟨[], rfl, .nil⟩
  | @cons index layer layers hindex hsound hrest ih =>
      have hwide' := LayerConfig.wide_of_makes hsound.valid hwide hsound.makes
      rw [OperatorBuilders.build, lookup_stock hsound.type]
      simp only [run_bind]
      rcases Operator.builds_build (α := α) hsound.valid hwide hsound.makes stream with ⟨o, ho, hmade⟩ | hlarge
      · rw [ho]
        simp only [run_bind]
        rcases ih hwide' (layer.config.build layer.input stream : Except RunError (Operator α) × Stream).2 with
          ⟨os, hos, hall⟩ | hlarge
        · rw [hos]
          exact .inl ⟨o :: os, rfl, .cons hmade hall⟩
        · rw [hlarge]
          exact .inr rfl
      · rw [hlarge]
        exact .inr rfl

/-- Of a design with a plan, the stock builders make operators for its layers, or stop at lengths that are too large. -/
theorem build_of_analysis (h : analysis design = .ok plan) (stream : Stream) :
    (∃ operators : List (Operator α), (OperatorBuilders.stock.build plan.layers stream).1 = .ok operators ∧
        Operator.AllMade plan.layers operators) ∨
      ((OperatorBuilders.stock : OperatorBuilders α).build plan.layers stream).1 = .error (.run .tooLarge) := by
  obtain ⟨hopens, hchained⟩ := chained_of_analysis h
  exact build_stock hchained (Shape.wide_of_positive hopens.positive_input) stream

/-! ## Guards -/

/-- A dense layer without units after a row of four numbers. -/
def unitless : Design := .ok [
  { type := "input", params := [(.text "shape", .list [.int 4])] },
  { type := "dense", params := [(.text "units", .int 0)] }]

end Stock

end LayerStack.Session
