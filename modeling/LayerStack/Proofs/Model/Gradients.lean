import LayerStack.Proofs.Model.Run
import LayerStack.Scalar.Machine
import Mathlib.Data.List.Nodup
import Std.Data.String.ToNat

/-!
# LayerStack.Proofs.Model.Gradients

Ways back through models, and the gradients they collect.

After any pass that succeeds there is a way back from every gradient on the axes of its result, and it leaves a gradient
for every parameter (`backward_covers_parameters`).  Parameters are known by their names alone, so two of them must never
have the same: a name begins with the number of its layer, which ends at the first underscore after it, and within an
operator no two names are equal.
-/

namespace LayerStack.Model

variable {α : Type}

/-! ## Names -/

/-- What stands before the first of a mark is the same in equal lists, and so is what stands after it. -/
theorem append_cons_inj {mark : Char} {before before' after after' : List Char} (h : mark ∉ before) (h' : mark ∉ before')
    (heq : before ++ mark :: after = before' ++ mark :: after') : before = before' ∧ after = after' := by
  induction before generalizing before' with
  | nil =>
      cases before' with
      | nil => exact ⟨rfl, (List.cons.inj heq).2⟩
      | cons c before' => exact absurd (List.cons.inj heq).1 (List.ne_of_not_mem_cons h')
  | cons c before ih =>
      cases before' with
      | nil => exact absurd (List.cons.inj heq).1.symm (List.ne_of_not_mem_cons h)
      | cons c' before' =>
          obtain ⟨rfl, htail⟩ := List.cons.inj heq
          obtain ⟨rfl, hafter⟩ := ih (List.not_mem_of_not_mem_cons h) (List.not_mem_of_not_mem_cons h') htail
          exact ⟨rfl, hafter⟩

/-- There is no underscore in the digits of a number. -/
theorem underscore_notMem_repr (n : Nat) : '_' ∉ n.repr.toList := by
  rw [Nat.toList_repr]
  intro h
  have hdigit := Nat.isDigit_of_mem_toDigits (by decide) (by decide) h
  contradiction

theorem tensorPrefix_eq (layer : ResolvedLayer) : tensorPrefix layer = "layer_" ++ layer.index.repr := rfl

/-- A name under a layer's number tells the number and the name. -/
theorem tensorPrefix_inj {layer layer' : ResolvedLayer} {name name' : String}
    (h : tensorPrefix layer ++ "_" ++ name = tensorPrefix layer' ++ "_" ++ name') :
    layer.index = layer'.index ∧ name = name' := by
  have hlist (layer : ResolvedLayer) (name : String) : (tensorPrefix layer ++ "_" ++ name).toList =
      "layer_".toList ++ (layer.index.repr.toList ++ '_' :: name.toList) := by
    simp [tensorPrefix_eq]
  have hchars := congrArg String.toList h
  rw [hlist, hlist] at hchars
  obtain ⟨hindex, hname⟩ := append_cons_inj (underscore_notMem_repr _) (underscore_notMem_repr _)
    (List.append_cancel_left hchars)
  exact ⟨Nat.repr_injective (String.toList_injective hindex), String.toList_injective hname⟩

/-- The names that layers in a row give to the parameters of some operators are all different, and tell the number of a
layer from the first on. -/
theorem nodup_names {index : Nat} {shape : Shape} {layers : List ResolvedLayer}
    (h : ShapePlan.Chained index shape layers) (os : List (Operator α)) :
    (names ((layers.zip os).flatMap fun (layer, o) => withPrefix (tensorPrefix layer) o.parameters)).Nodup ∧
      ∀ name ∈ names ((layers.zip os).flatMap fun (layer, o) => withPrefix (tensorPrefix layer) o.parameters),
        ∃ layer ∈ layers, index ≤ layer.index ∧ ∃ rest, name = tensorPrefix layer ++ "_" ++ rest := by
  induction h generalizing os with
  | nil => exact ⟨List.nodup_nil, by simp [names]⟩
  | @cons index layer layers hindex hsound hrest ih =>
      cases os with
      | nil => exact ⟨List.nodup_nil, by simp [names]⟩
      | cons o os =>
          obtain ⟨hnodup, hnames⟩ := ih os
          simp only [List.zip_cons_cons, List.flatMap_cons, names_append, names_withPrefix]
          refine ⟨List.nodup_append.mpr ⟨?_, hnodup, ?_⟩, ?_⟩
          · exact o.nodup_parameters.map fun name name' heq => (tensorPrefix_inj heq).2
          · intro name hname name' hname' heq
            obtain ⟨own, _, rfl⟩ := List.mem_map.mp hname
            obtain ⟨later, _, hlater, rest, rfl⟩ := hnames name' hname'
            have hsame := (tensorPrefix_inj heq).1
            omega
          · intro name hname
            rcases List.mem_append.mp hname with hname | hname
            · obtain ⟨own, _, rfl⟩ := List.mem_map.mp hname
              exact ⟨layer, List.mem_cons_self, hindex.ge, own, rfl⟩
            · obtain ⟨later, hmem, hlater, hrest⟩ := hnames name hname
              exact ⟨later, List.mem_cons_of_mem _ hmem, by omega, hrest⟩

/-! ## Gradients -/

theorem map_withPrefix {β γ : Type} (f : β → γ) (first : String) (named : List (String × β)) :
    (withPrefix first named).map (fun (name, x) => (name, f x)) =
      withPrefix first (named.map fun (name, x) => (name, f x)) := by
  simp [withPrefix]

/-- Where every operator has a gradient for each of its parameters, so has the model. -/
theorem collect_of_covered {m : Model α} (h : ∀ o ∈ m.operators, o.Covered) :
    (m.collect Operator.gradients).map (fun (name, g) => (name, g.map AnyTensor.dims)) =
      (m.collect Operator.parameters).map fun (name, x) => (name, some x.dims) := by
  rw [collect, collect, List.map_flatMap, List.map_flatMap]
  refine List.flatMap_congr fun (layer, o) hmem => ?_
  have hcovered : o.Covered := h o (List.of_mem_zip hmem).2
  show (withPrefix _ o.gradients).map _ = (withPrefix _ o.parameters).map _
  rw [map_withPrefix (fun g : Option (AnyTensor α) => g.map AnyTensor.dims), hcovered,
    map_withPrefix (fun x : AnyTensor α => some x.dims)]

variable [Scalar α]

omit [Scalar α] in
/-- What a model is fed with has no empty axis behind the first. -/
theorem feeds_of_prepare {plan : ShapePlan} (hopens : ShapePlan.Opens plan.declared plan.input) {x fed : AnyTensor α}
    (h : prepare plan x = .ok fed) : Operator.Feeds plan.input fed.dims := by
  have hsample {shape : Shape} (hpositive : shape.Positive) (hne : shape ≠ [])
      (hshape : (x.dims.drop 1).map Int.ofNat = shape) : Operator.Feeds shape x.dims := by
    obtain ⟨dims, value⟩ := x
    subst hshape
    cases dims with
    | nil => exact absurd rfl hne
    | cons b rest =>
        refine ⟨by simp, fun n hn => ?_⟩
        have hone := hpositive n (List.mem_map_of_mem hn)
        omega
  simp only [prepare] at h
  split at h
  · next hinput =>
      obtain rfl := Except.ok.inj h
      exact hsample hopens.positive_input hopens.input_ne_nil hinput
  · split at h
    · next hpromoted =>
        obtain rfl := Except.ok.inj h
        obtain ⟨hpromoted, hdeclared⟩ := Bool.and_eq_true_iff.mp hpromoted
        rcases hopens.input_eq with heq | ⟨hrank, heq⟩
        · simp [ShapePlan.promoted, heq] at hpromoted
        · have hfeeds := hsample hopens.positive (List.ne_nil_of_length_pos (by omega)) (beq_iff_eq.mp hdeclared)
          rw [heq]
          refine ⟨by simp [appendAxis, hfeeds.rank], fun n hn => ?_⟩
          have hne : x.dims ≠ [] := List.ne_nil_of_length_pos (by rw [hfeeds.rank]; omega)
          have htail : (appendAxis x).dims.tail = x.dims.tail ++ [1] := List.tail_append_of_ne_nil hne
          rw [htail] at hn
          rcases List.mem_append.mp hn with hn | hn
          · exact hfeeds.positive n hn
          · rw [List.mem_singleton.mp hn]
            exact Nat.one_pos
    · contradiction

/-- A made model whose operators have a batch from the axes `s` to the axes `t` behind them takes every gradient on the
axes `t` back to the axes `s`, and has a gradient for each of its parameters then. -/
theorem Made.backward_covers {m : Model α} (h : m.Made) {s t : Dims} (hleft : Chain.LeftAll s t m.operators)
    (hfeeds : Operator.Feeds m.plan.input s) {g : AnyTensor α} (hg : g.dims = t) :
    (∃ result, (m.backward g).1 = .ok result ∧ result.dims = s) ∧
      ∃ parameters gradients, (m.backward g).2.parameters = .ok parameters ∧
        (m.backward g).2.gradients = .ok gradients ∧
        gradients.map (fun (name, g) => (name, g.map AnyTensor.dims)) =
          parameters.map (fun (name, p) => (name, some p.dims)) ∧
        (names parameters).Nodup := by
  obtain ⟨result, hback, hdims, hcovered⟩ := Chain.backward_of_leftAll h.chained h.operators hleft hfeeds hg
  let back : Model α := { m with operators := (Chain.backward m.operators g).2 }
  have hlive : back.live = .ok back := if_neg (by simp [back, h.alive])
  rw [backward_eq h.alive]
  refine ⟨⟨result, hback, hdims⟩, back.collect Operator.parameters, back.collect Operator.gradients, ?_, ?_,
    collect_of_covered (m := back) hcovered, (nodup_names h.chained _).1⟩
  · show back.parameters = _
    rw [parameters, hlive]
    rfl
  · show back.gradients = _
    rw [gradients, hlive]
    rfl

/-- There is a way back from every pass.  After any run of a compiled model and a forward pass that succeeds, a gradient
on the axes of its result goes back to the axes of what the first operator was given; and then the gradients have the
names of the parameters, in their order, and for each there is a tensor on its axes.  No two parameters have the same
name. -/
theorem backward_covers_parameters {design : Session.Design} {m : Model α} (h : Session.Compiles design m)
    (moves : List (Move α)) (start : Stream) {training : Bool} {x y : AnyTensor α} {stream : Stream}
    (hforward : ((m.after moves start).1.forward training x stream).1.1 = .ok y) {g : AnyTensor α}
    (hg : g.dims = y.dims) :
    let back := ((m.after moves start).1.forward training x stream).1.2.backward g
    (∃ fed result, prepare m.plan x = .ok fed ∧ back.1 = .ok result ∧ result.dims = fed.dims) ∧
      ∃ parameters gradients, back.2.parameters = .ok parameters ∧ back.2.gradients = .ok gradients ∧
        gradients.map (fun (name, g) => (name, g.map AnyTensor.dims)) =
          parameters.map (fun (name, p) => (name, some p.dims)) ∧
        (names parameters).Nodup := by
  obtain ⟨hplan, hrun⟩ := (made_of_compiles h).2.after moves start
  generalize (m.after moves start).1 = run at *
  cases hfed : prepare run.plan x with
  | error e =>
      rw [forward_of_error hrun.alive hfed] at hforward
      contradiction
  | ok fed =>
      obtain ⟨hkept, hpassed⟩ := hrun.forward training x stream
      have hleft : Chain.LeftAll fed.dims y.dims (run.forward training x stream).1.2.operators := by
        rw [forward_eq hrun.alive hfed] at hforward ⊢
        exact Chain.leftAll_of_forward hforward
      have hfeeds : Operator.Feeds (run.forward training x stream).1.2.plan.input fed.dims := by
        rw [hkept]
        exact feeds_of_prepare hrun.opens hfed
      obtain ⟨⟨result, hback, hdims⟩, hcovered⟩ := hpassed.backward_covers hleft hfeeds hg
      rw [hplan] at hfed
      exact ⟨⟨fed, result, hfed, hback, hdims⟩, hcovered⟩

/-- After a pass in training, a gradient for two rows of three numbers goes back to two images with a channel axis. -/
theorem backward_covers_convolved :
    ∃ (m : Model Float) (y g : AnyTensor Float),
      let images : AnyTensor Float := ⟨[2, 4, 4], Tensor.fill 1 _⟩
      let pass := (m.forward true images (Stream.ofSeed 5)).1
      Session.Compiles convolved m ∧ pass.1 = .ok y ∧ g.dims = y.dims ∧
        (∃ result, (pass.2.backward g).1 = .ok result ∧ result.dims = [2, 4, 4, 1]) ∧
        ∃ parameters gradients, (pass.2.backward g).2.parameters = .ok parameters ∧
          (pass.2.backward g).2.gradients = .ok gradients ∧ names gradients = names parameters ∧
          (names parameters).Nodup := by
  let images : AnyTensor Float := ⟨[2, 4, 4], Tensor.fill 1 _⟩
  obtain ⟨m, y, hm, hforward, hfed⟩ : ∃ (m : Model Float) (y : AnyTensor Float), Session.Compiles convolved m ∧
      ((m.after [] (Stream.ofSeed 3)).1.forward true images (Stream.ofSeed 5)).1.1 = .ok y ∧
      AnyTensor.dims <$> prepare m.plan images = .ok [2, 4, 4, 1] :=
    ⟨_, _, ⟨Session.start 7 true, 0, rfl, rfl, rfl⟩, rfl, rfl⟩
  let g : AnyTensor Float := ⟨y.dims, Tensor.fill 1 _⟩
  obtain ⟨⟨fed, result, hprepare, hback, hdims⟩, parameters, gradients, hparameters, hgradients, heq, hnodup⟩ :=
    backward_covers_parameters hm [] (Stream.ofSeed 3) hforward (g := g) rfl
  rw [hprepare] at hfed
  have hnames : names gradients = names parameters := by
    have h := congrArg (List.map Prod.fst) heq
    simpa [names, Function.comp_def] using h
  exact ⟨m, y, g, hm, hforward, rfl, ⟨result, hback, hdims.trans (Except.ok.inj hfed)⟩, parameters, gradients,
    hparameters, hgradients, hnames, hnodup⟩

end LayerStack.Model
