import LayerStack.Proofs.Model.Run
import LayerStack.Scalar.Machine

/-!
# LayerStack.Proofs.Model.Shapes

What a plan says of shapes is what a model does.

A plan is made by shape rules alone, before there is any operator.  `forward_agrees_with_plan` says that a model compiled
from it makes just the shapes it gives: between any two of its operators, for batches of any length, in training or not,
and whatever the model went through before.
-/

namespace LayerStack.Model

variable {α : Type}

/-- A batch of samples of the plan's shape, or of the shape declared where that was promoted, is fed to the first operator
on the axes of the plan. -/
theorem prepare_of_dims {plan : ShapePlan} (hopens : ShapePlan.Opens plan.declared plan.input) {x : AnyTensor α} {b : Nat}
    (hx : x.dims.map Int.ofNat = (b : Int) :: plan.input ∨ x.dims.map Int.ofNat = (b : Int) :: plan.declared) :
    ∃ x', prepare plan x = .ok x' ∧ x'.dims = b :: plan.input.dims := by
  have hsample {shape : Shape} (h : x.dims.map Int.ofNat = (b : Int) :: shape) :
      x.dims = b :: shape.dims ∧ (x.dims.drop 1).map Int.ofNat = shape := by
    have hdims : x.dims = b :: shape.dims := Shape.dims_of_map h
    refine ⟨hdims, ?_⟩
    rw [List.map_drop, h]
    rfl
  rcases hx with hx | hx
  · obtain ⟨hdims, hinput⟩ := hsample hx
    exact ⟨x, by rw [prepare, if_pos hinput], hdims⟩
  · obtain ⟨hdims, hdeclared⟩ := hsample hx
    rcases hopens.input_eq with heq | ⟨_, heq⟩
    · exact ⟨x, by rw [prepare, if_pos (hdeclared.trans heq.symm)], by rw [hdims, heq]⟩
    · have hne : plan.declared ≠ plan.input := by
        intro h
        have hlength := congrArg List.length (h.trans heq)
        simp at hlength
      have hpromoted : (plan.promoted && plan.declared == plan.declared) = true := by
        simp [ShapePlan.promoted, hne.symm]
      refine ⟨appendAxis x, ?_, ?_⟩
      · rw [prepare, hdeclared, if_neg hne, if_pos hpromoted]
      · show x.dims ++ [1] = b :: plan.input.dims
        rw [hdims, heq, Shape.dims, Shape.dims, List.map_append]
        rfl

theorem getLast?_take {layers : List ResolvedLayer} {i : Nat} (hi : i < layers.length) :
    (layers.take (i + 1)).getLast? = some layers[i] := by
  rw [List.getLast?_take]
  simp [hi]

variable [Scalar α] {m : Model α} {b : Nat}

/-- The beginning of a made model's chain makes of samples of the plan's shape what the plan gives for the layers of the
beginning. -/
theorem Made.passes_take (h : m.Made) (hwords : ∀ a : α, Scalar.isWord a = false) (hb : 1 ≤ b)
    (hfew : ∀ layer ∈ m.plan.layers, b * layer.input.entries < 2 ^ 63) {x : AnyTensor α}
    (hx : x.dims = b :: m.plan.input.dims) (count : Nat) (training : Bool) (stream : Stream) :
    Chain.Passes b m.plan.input (m.plan.layers.take count)
      (Chain.forward training (m.operators.take count) x stream).1.1 :=
  Chain.passes_forward hwords (h.chained.take count) (List.forall₂_take count h.operators) h.opens.positive_input
    h.opens.input_ne_nil hb (fun layer hlayer => hfew layer (List.mem_of_mem_take hlayer)) hx training stream

/-- A model makes the shapes its plan gives.  For every design compiled with the stock builders, after any run, and for
every batch of doubles with samples of the plan's input shape, or of the declared one where it was promoted, a forward
pass either fails because an embedding is given what are no tokens of its table, or succeeds, and then what leaves each
operator is a batch of samples of the output shape of its layer.  It is assumed that no layer is given a tensor of as many
entries as a signed word cannot count. -/
theorem forward_agrees_with_plan {design : Session.Design} {m : Model Float} (h : Session.Compiles design m)
    (moves : List (Move Float)) (start : Stream) {b : Nat} (hb : 1 ≤ b) {x : AnyTensor Float}
    (hx : x.dims.map Int.ofNat = (b : Int) :: m.plan.input ∨ x.dims.map Int.ofNat = (b : Int) :: m.plan.declared)
    (hfew : ∀ layer ∈ m.plan.layers, b * layer.input.entries < 2 ^ 63) (training : Bool) (stream : Stream) :
    let run := (m.after moves start).1
    let result := (run.forward training x stream).1.1
    (∃ e, result = .error e ∧ Embedding.IsTokenFault e ∧ ∃ layer ∈ m.plan.layers, ∃ c, layer.config = .embedding c) ∨
      (∃ y, result = .ok y ∧ y.dims.map Int.ofNat = (b : Int) :: m.plan.output) ∧
      ∃ x', prepare m.plan x = .ok x' ∧ ∀ (i : Nat) (hi : i < m.plan.layers.length),
        ∃ y, (Chain.forward training (run.operators.take (i + 1)) x' stream).1.1 = .ok y ∧
          y.dims.map Int.ofNat = (b : Int) :: m.plan.layers[i].output := by
  intro run result
  have hwords (a : Float) : Scalar.isWord a = false := rfl
  obtain ⟨hplan, hrun⟩ := (made_of_compiles h).2.after moves start
  have hplan : run.plan = m.plan := hplan
  rw [← hplan] at hx hfew ⊢
  obtain ⟨x', hprepare, hx'⟩ := prepare_of_dims hrun.opens hx
  have hresult : result = (Chain.forward training run.operators x' stream).1.1 := by
    show (run.forward training x stream).1.1 = _
    rw [forward_eq hrun.alive hprepare]
  have hlength : run.plan.layers.length = run.operators.length := hrun.operators.length_eq
  have hall := hrun.passes_take hwords hb hfew hx' run.operators.length training stream
  rw [List.take_of_length_le hlength.le, List.take_length] at hall
  rcases hall with ⟨y, hy, hdims⟩ | ⟨hembedding, e, he, hfault⟩
  · refine .inr ⟨⟨y, hresult.trans hy, hdims⟩, x', hprepare, fun i hi => ?_⟩
    rcases hrun.passes_take hwords hb hfew hx' (i + 1) training stream with ⟨z, hz, hdims'⟩ | ⟨_, e, he, _⟩
    · rw [getLast?_take hi] at hdims'
      exact ⟨z, hz, hdims'⟩
    · -- Where the beginning of the chain fails, so does the chain.
      have hfails := Chain.forward_append_of_error (run.operators.drop (i + 1)) he
      rw [List.take_append_drop, hy] at hfails
      contradiction
  · obtain ⟨layer, hlayer, c, hc⟩ := hembedding
    exact .inl ⟨e, hresult.trans he, hfault, layer, hlayer, c, hc⟩

/-- Two images of four by four cells become two rows of three numbers, after a pass outside of training. -/
theorem forward_agrees_with_convolved :
    ∃ m : Model Float, Session.Compiles convolved m ∧ m.plan.declared = [4, 4] ∧
      let images : AnyTensor Float := ⟨[2, 4, 4], Tensor.fill 1 _⟩
      let run := (m.after [.forward false images] (Stream.ofSeed 3)).1
      ∃ y, (run.forward true images (Stream.ofSeed 5)).1.1 = .ok y ∧ y.dims.map Int.ofNat = [2, 3] := by
  obtain ⟨m, hm⟩ : ∃ m : Model Float, Session.Compiles convolved m := ⟨_, Session.start 7 true, 0, rfl, rfl, rfl⟩
  have hplan := (made_of_compiles hm).1
  have hfacts : (fun plan : ShapePlan => (plan.declared, plan.output,
      decide (∀ layer ∈ plan.layers, ((2 : Nat) : Int) * layer.input.entries < 2 ^ 63),
      plan.layers.any fun layer => layer.config matches .embedding _)) <$> Session.analysis convolved =
        .ok ([4, 4], [3], true, false) := rfl
  rw [hplan] at hfacts
  obtain ⟨hdeclared, hfacts⟩ := Prod.mk.inj (Except.ok.inj hfacts)
  obtain ⟨houtput, hfacts⟩ := Prod.mk.inj hfacts
  obtain ⟨hfew, hnone⟩ := Prod.mk.inj hfacts
  let images : AnyTensor Float := ⟨[2, 4, 4], Tensor.fill 1 _⟩
  have hx : images.dims.map Int.ofNat = ((2 : Nat) : Int) :: m.plan.declared := by
    rw [hdeclared]
    rfl
  refine ⟨m, hm, hdeclared, ?_⟩
  rcases forward_agrees_with_plan hm [.forward false images] (Stream.ofSeed 3) (by decide) (.inr hx)
      (of_decide_eq_true hfew) true (Stream.ofSeed 5) with ⟨_, _, _, layer, hlayer, c, hc⟩ | ⟨⟨y, hy, hdims⟩, _⟩
  · have hembedding := List.any_eq_false.mp hnone layer hlayer
    rw [hc] at hembedding
    contradiction
  · rw [houtput] at hdims
    exact ⟨y, hy, hdims⟩

end LayerStack.Model
