import LayerStack.Model
import LayerStack.Proofs.Operator.Agree
import LayerStack.Proofs.Operator.Backward
import Mathlib.Data.List.Forall2

/-!
# LayerStack.Proofs.Model.Chain

Passes through chains of operators.

What holds of one operator holds along a chain.  Operators stay made for the layers of their plan (`allMade_forward`,
`allMade_backward`).  A batch comes out of every prefix of the chain on the axes that the plan gives for it
(`passes_forward`).  A pass that succeeds leaves axes that meet from one operator to the next (`LeftAll`), so a gradient
finds its way back through all of them (`backward_of_leftAll`).
-/

namespace LayerStack.Chain

open Operator

variable {α : Type} [Scalar α] {training : Bool} {o : Operator α} {os : List (Operator α)} {x y : AnyTensor α}
  {stream : Stream}

/-! ## One operator and the others -/

theorem forward_cons_of_error {e : RunError} (h : (o.forward training x stream).1.1 = .error e) :
    forward training (o :: os) x stream =
      ((.error e, (o.forward training x stream).1.2 :: os), (o.forward training x stream).2) := by
  rw [forward, run_bind]
  simp only [h]
  rfl

theorem forward_cons_of_ok (h : (o.forward training x stream).1.1 = .ok y) :
    forward training (o :: os) x stream =
      let rest := forward training os y (o.forward training x stream).2
      ((rest.1.1, (o.forward training x stream).1.2 :: rest.1.2), rest.2) := by
  rw [forward, run_bind]
  simp only [h]
  rfl

/-- A chain that begins with another one fails where that one fails. -/
theorem forward_append_of_error {e : RunError} (os' : List (Operator α))
    (h : (forward training os x stream).1.1 = .error e) : (forward training (os ++ os') x stream).1.1 = .error e := by
  induction os generalizing x stream with
  | nil => contradiction
  | cons o os ih =>
      rw [List.cons_append]
      cases hresult : (o.forward training x stream).1.1 with
      | error e' =>
          rw [forward_cons_of_error hresult] at h ⊢
          exact h
      | ok y =>
          rw [forward_cons_of_ok hresult] at h ⊢
          exact ih h

/-! ## What passes leave alone -/

section Kept

variable {β : Type} {keep : Operator α → β}

/-- What a pass leaves alone of every operator it leaves alone along a chain. -/
theorem map_forward (hkeep : ∀ (o : Operator α) x stream, keep (o.forward training x stream).1.2 = keep o)
    (os : List (Operator α)) (x : AnyTensor α) (stream : Stream) :
    (forward training os x stream).1.2.map keep = os.map keep := by
  induction os generalizing x stream with
  | nil => rfl
  | cons o os ih =>
      have hfirst := hkeep o x stream
      cases hresult : (o.forward training x stream).1.1 with
      | error e => rw [forward_cons_of_error hresult, List.map_cons, List.map_cons, hfirst]
      | ok y => rw [forward_cons_of_ok hresult, List.map_cons, List.map_cons, hfirst, ih]

theorem map_backward (hkeep : ∀ (o : Operator α) g, keep (o.backward g).2 = keep o) (os : List (Operator α))
    (g : AnyTensor α) : (backward os g).2.map keep = os.map keep := by
  induction os with
  | nil => rfl
  | cons o os ih =>
      rw [backward]
      rcases hback : backward os g with ⟨e | g', os'⟩
      · rw [hback] at ih
        rw [List.map_cons, List.map_cons, ih]
      · rw [hback] at ih
        rw [List.map_cons, List.map_cons, ih, hkeep]

omit [Scalar α] in
theorem map_change (hkeep : ∀ (o : Operator α) (f : TensorChange α), keep (o.change f) = keep o)
    (change : ResolvedLayer → TensorChange α) {layers : List ResolvedLayer} {os : List (Operator α)}
    (h : os.length = layers.length) :
    ((layers.zip os).map fun (layer, o) => o.change (change layer)).map keep = os.map keep := by
  calc ((layers.zip os).map fun (layer, o) => o.change (change layer)).map keep
      = (layers.zip os).map fun (layer, o) => keep (o.change (change layer)) := List.map_map
    _ = (layers.zip os).map fun p => keep p.2 := List.map_congr_left fun (layer, o) _ => hkeep o (change layer)
    _ = ((layers.zip os).map Prod.snd).map keep := by rw [List.map_map, Function.comp_def]
    _ = os.map keep := by rw [List.map_snd_zip h.le]

end Kept

/-! ## What the operators are made for -/

variable {layers : List ResolvedLayer}

theorem allMade_forward (h : AllMade layers os) (training : Bool) (x : AnyTensor α) (stream : Stream) :
    AllMade layers (forward training os x stream).1.2 := by
  induction h generalizing x stream with
  | nil => exact .nil
  | @cons layer o layers os ho hos ih =>
      have ho' := madeFor_forward ho training x stream
      cases hresult : (o.forward training x stream).1.1 with
      | error e =>
          rw [forward_cons_of_error hresult]
          exact .cons ho' hos
      | ok y =>
          rw [forward_cons_of_ok hresult]
          exact .cons ho' (ih y _)

theorem allMade_backward (h : AllMade layers os) (g : AnyTensor α) : AllMade layers (backward os g).2 := by
  induction h with
  | nil => exact .nil
  | @cons layer o layers os ho hos ih =>
      rw [backward]
      rcases hback : backward os g with ⟨e | g', os'⟩
      · rw [hback] at ih
        exact .cons ho ih
      · rw [hback] at ih
        exact .cons (madeFor_backward ho g') ih

omit [Scalar α] in
theorem allMade_change (change : ResolvedLayer → TensorChange α) (h : AllMade layers os) :
    AllMade layers ((layers.zip os).map fun (layer, o) => o.change (change layer)) := by
  induction h with
  | nil => exact .nil
  | cons hmade _ ih => exact .cons (madeFor_change hmade _) ih

/-! ## Forward -/

/-- What a batch of samples comes to at the end of a chain for some layers: samples of the shape of the last layer, or
an embedding's word that the batch are no tokens. -/
def Passes (b : Nat) (shape : Shape) (layers : List ResolvedLayer) (result : Except RunError (AnyTensor α)) : Prop :=
  (∃ y, result = .ok y ∧ y.dims.map Int.ofNat = (b : Int) :: ((layers.getLast?).map (·.output)).getD shape) ∨
    (∃ layer ∈ layers, ∃ c, layer.config = .embedding c) ∧ ∃ e, result = .error e ∧ Embedding.IsTokenFault e

/-- Layers in a row make what those after the first make of its output. -/
theorem getD_output_cons (layer : ResolvedLayer) (layers : List ResolvedLayer) (shape : Shape) :
    (((layer :: layers).getLast?).map (·.output)).getD shape = ((layers.getLast?).map (·.output)).getD layer.output := by
  rw [List.getLast?_cons]
  cases layers.getLast? <;> rfl

omit [Scalar α] in
theorem Passes.cons {b : Nat} {layer : ResolvedLayer} {result : Except RunError (AnyTensor α)}
    (h : Passes b layer.output layers result) : Passes b layer.input (layer :: layers) result := by
  rcases h with ⟨y, hresult, hy⟩ | ⟨⟨embedding, hmem, hc⟩, hfault⟩
  · exact .inl ⟨y, hresult, by rw [getD_output_cons, hy]⟩
  · exact .inr ⟨⟨embedding, List.mem_cons_of_mem _ hmem, hc⟩, hfault⟩

/-- A batch comes out of a chain on the axes that the plan of its layers gives. -/
theorem passes_forward (hwords : ∀ a : α, Scalar.isWord a = false) {index : Nat} {shape : Shape}
    (hchained : ShapePlan.Chained index shape layers) (hmade : AllMade layers os) (hpositive : shape.Positive)
    (hne : shape ≠ []) {b : Nat} (hb : 1 ≤ b) (hfew : ∀ layer ∈ layers, b * layer.input.entries < Word.half)
    (hx : x.dims = b :: shape.dims) (training : Bool) (stream : Stream) :
    Passes b shape layers (forward training os x stream).1.1 := by
  induction hchained generalizing os x stream with
  | nil =>
      cases hmade
      exact .inl ⟨x, rfl, by rw [hx, List.map_cons, Shape.map_dims hpositive]; rfl⟩
  | @cons index layer layers hindex hsound hrest ih =>
      cases hmade with
      | @cons _ o _ os ho hos =>
          have hentries : layer.input.entries < Word.half := by
            have hone := Shape.one_le_entries hpositive
            have hbatch := hfew layer List.mem_cons_self
            nlinarith
          have hfew' : ∀ layer ∈ layers, b * layer.input.entries < Word.half := fun layer hlayer =>
            hfew layer (List.mem_cons_of_mem _ hlayer)
          have hpositive' := LayerConfig.positive_of_makes hsound.valid hpositive hentries hsound.makes
          have hne' := LayerConfig.ne_nil_of_makes hne hsound.makes
          rcases Operator.passes_forward hwords ho hsound.valid hsound.makes hpositive hne hentries hx training stream with
            ⟨y, hresult, hy⟩ | ⟨⟨c, hc⟩, e, hresult, hfault⟩
          · rw [forward_cons_of_ok hresult]
            exact (ih hos hpositive' hne' hfew' hy _).cons
          · rw [forward_cons_of_error hresult]
            exact .inr ⟨⟨layer, List.mem_cons_self, c, hc⟩, e, rfl, hfault⟩

/-! ## Backward -/

/-- Operators after a forward pass from the axes `s` to the axes `t`: each took what the one before it made. -/
inductive LeftAll : Dims → Dims → List (Operator α) → Prop
  | nil {s : Dims} : LeftAll s s []
  | cons {s t u : Dims} {o : Operator α} {os : List (Operator α)} (ho : Left s t o) (hos : LeftAll t u os) :
    LeftAll s u (o :: os)

theorem leftAll_of_forward (h : (forward training os x stream).1.1 = .ok y) :
    LeftAll x.dims y.dims (forward training os x stream).1.2 := by
  induction os generalizing x stream with
  | nil =>
      obtain rfl := Except.ok.inj h
      exact .nil
  | cons o os ih =>
      cases hresult : (o.forward training x stream).1.1 with
      | error e =>
          rw [forward_cons_of_error hresult] at h
          contradiction
      | ok z =>
          rw [forward_cons_of_ok hresult] at h ⊢
          exact .cons (left_of_forward hresult) (ih h)

/-- A gradient on the axes that a chain made goes back to those it took, and leaves a gradient for every parameter of
every operator. -/
theorem backward_of_leftAll {index : Nat} {shape : Shape} (hchained : ShapePlan.Chained index shape layers) {s t : Dims}
    (hmade : AllMade layers os) (h : LeftAll s t os) (hfeeds : Feeds shape s) {g : AnyTensor α} (hg : g.dims = t) :
    ∃ x, (backward os g).1 = .ok x ∧ x.dims = s ∧ ∀ o ∈ (backward os g).2, o.Covered := by
  induction h generalizing layers index shape with
  | nil => exact ⟨g, rfl, hg, by simp [backward]⟩
  | @cons s t u o os ho hos ih =>
      cases hmade with
      | @cons layer _ layers _ hmade hmades =>
          cases hchained with
          | cons _ hsound hrest =>
              have hfeeds' := ho.feeds hmade hsound.valid hsound.makes hfeeds
              obtain ⟨g', hback', hg', hcovered⟩ := ih hrest hmades hfeeds' hg
              obtain ⟨x, hback, hx, hcovered'⟩ := backward_of_left hmade hsound.valid hsound.makes ho hfeeds hg'
              have hcons : backward (o :: os) g = ((o.backward g').1, (o.backward g').2 :: (backward os g).2) := by
                rw [backward]
                rcases hos : backward os g with ⟨_ | _, _⟩
                · rw [hos] at hback'
                  contradiction
                · rw [hos] at hback'
                  obtain rfl := Except.ok.inj hback'
                  rfl
              rw [hcons]
              exact ⟨x, hback, hx, List.forall_mem_cons.mpr ⟨hcovered', hcovered⟩⟩

end LayerStack.Chain
