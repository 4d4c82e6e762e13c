import LayerStack.Proofs.Model.Chain
import LayerStack.Proofs.Session.Compile

/-!
# LayerStack.Proofs.Model.Run

Compiled models, and what becomes of them.

A model is `Made` if its operators are made for the layers of its plan, and those are in a row.  A compilation with the
stock builders makes such models (`made_of_compiles`), and they stay so through every run of passes, ways back and
changes of parameters, in any order and whether they succeed or not (`Made.after`).
-/

namespace LayerStack

variable {α : Type}

/-- A session with the stock builders compiles a design into a model. -/
def Session.Compiles [Scalar α] (design : Session.Design) (m : Model α) : Prop :=
  ∃ (s : Session α) (id : Identity), s.builders = .stock ∧ (Session.compile design s).1 = .ok id ∧
    (Session.compile design s).2.model? id = some m

namespace Model

/-! ## Runs -/

/-- What is done with a model. -/
inductive Move (α : Type) where
  | forward (training : Bool) (x : AnyTensor α)
  | backward (g : AnyTensor α)
  | change (f : TensorChange α)

variable [Scalar α]

def Move.run (m : Model α) : Move α → Draw (Model α)
  | .forward training x => do return (← m.forward training x).2
  | .backward g => pure (m.backward g).2
  | .change f => pure (m.change f)

/-- A model after some moves. -/
def after (m : Model α) : List (Move α) → Draw (Model α)
  | [] => pure m
  | move :: moves => do after (← move.run m) moves

/-! ## The invariant -/

omit [Scalar α] in
/-- A model that is alive, with an operator for every layer of its plan, whose layers are in a row. -/
structure Made (m : Model α) : Prop where
  alive : m.disposed = false
  opens : ShapePlan.Opens m.plan.declared m.plan.input
  chained : ShapePlan.Chained 1 m.plan.input m.plan.layers
  operators : Operator.AllMade m.plan.layers m.operators

variable {m : Model α} {design : Session.Design}

/-- A compiled model is made for the plan of its design. -/
theorem made_of_compiles (h : Session.Compiles design m) : Session.analysis design = .ok m.plan ∧ m.Made := by
  obtain ⟨s, id, hstock, hcompile, hmodel⟩ := h
  obtain ⟨hplan, hbuild, halive⟩ := Session.built_of_compile hcompile hmodel
  obtain ⟨hopens, hchained⟩ := Session.chained_of_analysis hplan
  rw [hstock] at hbuild
  rcases Session.build_of_analysis (α := α) hplan s.stream with ⟨operators, hbuilt, hmade⟩ | hlarge
  · rw [hbuild] at hbuilt
    obtain rfl := Except.ok.inj hbuilt
    exact ⟨hplan, halive, hopens, hchained, hmade⟩
  · rw [hbuild] at hlarge
    contradiction

/-! ## What keeps it -/

theorem forward_eq (h : m.disposed = false) {x x' : AnyTensor α} (hx : prepare m.plan x = .ok x') (training : Bool)
    (stream : Stream) : m.forward training x stream =
      let result := Chain.forward training m.operators x' stream
      ((result.1.1, { m with operators := result.1.2 }), result.2) := by
  simp [forward, live, h, hx, Except.bind]
  rfl

theorem forward_of_error (h : m.disposed = false) {x : AnyTensor α} {e : RunError} (hx : prepare m.plan x = .error e)
    (training : Bool) (stream : Stream) : m.forward training x stream = ((.error e, m), stream) := by
  simp [forward, live, h, hx, Except.bind]
  rfl

theorem backward_eq (h : m.disposed = false) (g : AnyTensor α) :
    m.backward g = ((Chain.backward m.operators g).1, { m with operators := (Chain.backward m.operators g).2 }) := by
  simp [backward, live, h]

theorem Made.forward (h : m.Made) (training : Bool) (x : AnyTensor α) (stream : Stream) :
    (m.forward training x stream).1.2.plan = m.plan ∧ (m.forward training x stream).1.2.Made := by
  cases hx : prepare m.plan x with
  | error e =>
      rw [forward_of_error h.alive hx]
      exact ⟨rfl, h⟩
  | ok x' =>
      rw [forward_eq h.alive hx]
      exact ⟨rfl, h.alive, h.opens, h.chained, Chain.allMade_forward h.operators training x' stream⟩

theorem Made.backward (h : m.Made) (g : AnyTensor α) :
    (m.backward g).2.plan = m.plan ∧ (m.backward g).2.Made := by
  rw [backward_eq h.alive]
  exact ⟨rfl, h.alive, h.opens, h.chained, Chain.allMade_backward h.operators g⟩

omit [Scalar α] in
theorem Made.change (h : m.Made) (f : TensorChange α) : (m.change f).plan = m.plan ∧ (m.change f).Made := by
  exact ⟨rfl, h.alive, h.opens, h.chained,
    Chain.allMade_change (fun layer => f.under (tensorPrefix layer)) h.operators⟩

theorem Made.run (h : m.Made) (move : Move α) (stream : Stream) :
    (move.run m stream).1.plan = m.plan ∧ (move.run m stream).1.Made := by
  cases move with
  | forward training x => exact h.forward training x stream
  | backward g => exact h.backward g
  | change f => exact h.change f

/-- A made model stays one, and of the same plan. -/
theorem Made.after (h : m.Made) (moves : List (Move α)) (stream : Stream) :
    (m.after moves stream).1.plan = m.plan ∧ (m.after moves stream).1.Made := by
  induction moves generalizing m stream with
  | nil => exact ⟨rfl, h⟩
  | cons move moves ih =>
      obtain ⟨hplan, hmade⟩ := h.run move stream
      obtain ⟨hplan', hmade'⟩ := ih hmade (move.run m stream).2
      exact ⟨hplan'.trans hplan, hmade'⟩

/-! ## What moves leave alone -/

/-- What neither a pass, nor a way back, nor a change of the parameters touches of an operator. -/
structure Untouched {β : Type} (keep : Operator α → β) : Prop where
  forward : ∀ (training : Bool) (o : Operator α) x stream, keep (o.forward training x stream).1.2 = keep o
  backward : ∀ (o : Operator α) g, keep (o.backward g).2 = keep o
  change : ∀ (o : Operator α) (f : TensorChange α), keep (o.change f) = keep o

variable {β : Type} {keep : Operator α → β}

theorem map_forward {training : Bool} (hkeep : ∀ (o : Operator α) x stream, keep (o.forward training x stream).1.2 = keep o)
    (m : Model α) (x : AnyTensor α) (stream : Stream) :
    (m.forward training x stream).1.2.operators.map keep = m.operators.map keep := by
  cases hx : m.live.bind fun m => prepare m.plan x with
  | error e =>
      simp only [Model.forward, hx]
      rfl
  | ok x' =>
      simp only [Model.forward, hx]
      exact Chain.map_forward hkeep m.operators x' stream

theorem map_backward (hkeep : ∀ (o : Operator α) g, keep (o.backward g).2 = keep o) (m : Model α) (g : AnyTensor α) :
    (m.backward g).2.operators.map keep = m.operators.map keep := by
  cases hlive : m.live with
  | error e => simp only [Model.backward, hlive]
  | ok m' =>
      simp only [Model.backward, hlive]
      exact Chain.map_backward hkeep m.operators g

omit [Scalar α] in
/-- What is collected from a model hangs on the places of its layers and the operators there. -/
theorem collect_eq (of : Operator α → List (String × β)) (m : Model α) :
    m.collect of = ((m.plan.layers.map (·.index)).zip (m.operators.map of)).flatMap
      fun (index, named) => withPrefix s!"layer_{index}" named := by
  rw [List.zip_map, List.flatMap_map]
  rfl

/-- A move leaves it alone in a model with an operator for every layer. -/
theorem map_run (hkeep : Untouched keep) (hlength : m.operators.length = m.plan.layers.length) (move : Move α)
    (stream : Stream) : (move.run m stream).1.operators.map keep = m.operators.map keep := by
  cases move with
  | forward training x => exact map_forward (hkeep.forward training) m x stream
  | backward g => exact map_backward hkeep.backward m g
  | change f => exact Chain.map_change hkeep.change (fun layer => f.under (tensorPrefix layer)) hlength

/-- So does any number of moves. -/
theorem Made.map_after (h : m.Made) (hkeep : Untouched keep) (moves : List (Move α)) (stream : Stream) :
    (m.after moves stream).1.operators.map keep = m.operators.map keep := by
  induction moves generalizing m stream with
  | nil => rfl
  | cons move moves ih =>
      have hrest := ih (h.run move stream).2 (move.run m stream).2
      exact hrest.trans (map_run hkeep h.operators.length_eq.symm move stream)

/-! ## A compiled model -/

/-- A design for images of four by four cells: a convolution, and a dense layer behind its flattened maps. -/
def convolved : Session.Design := .ok [
  { type := "input", params := [(.text "shape", .list [.int 4, .int 4])] },
  { type := "conv2d", params := [(.text "filters", .int 2), (.text "kernelSize", .int 3)] },
  { type := "flatten", params := [] },
  { type := "dense", params := [(.text "units", .int 3)] }]

end Model

end LayerStack
