import Mathlib.Algebra.CharZero.Defs
import LayerStack.Proofs.Loader.Delivery
import LayerStack.Proofs.Loss.Mean
import LayerStack.Proofs.Model.Sample
import LayerStack.Proofs.Operator.Permuted
import LayerStack.Proofs.Scalar.Real
import LayerStack.Proofs.Session.Step
import LayerStack.Proofs.Training.Head
import LayerStack.Proofs.Training.Kept

/-!
# LayerStack.Proofs.Training.Evaluate

An evaluation does not hang on its batches.

The metrics of a batch are means over its samples, so weighted by its length they are sums (`Tally.sumOver`), and those of the
batches add up to the sums over all samples (`evaluateBatches_eq`).  A model predicts for each sample by itself, so the
sums have the same terms however the samples are cut into batches, and whatever order they come in.  The main statement is
`evaluates_whole`.
-/

namespace LayerStack

open Tensor

namespace Trainer

/-! ## Sums of metrics -/

variable {α β : Type} [Scalar α]

namespace Tally

/-- The sums over some samples. -/
def sumOver (loss accuracy : β → α) (samples : List β) : Tally α :=
  ⟨(samples.map loss).sum, (samples.map accuracy).sum, samples.length⟩

/-- The means over some more samples, weighted by their number, add up to the sums over all. -/
theorem add_sumOver {α : Type} [ExactField α] [CharZero α] (loss accuracy : β → α) (samples : List β) {more : List β}
    (hmore : more ≠ []) : (sumOver loss accuracy samples).add (sumOver loss accuracy more).mean more.length =
      sumOver loss accuracy (samples ++ more) := by
  have hcount : (more.length : α) ≠ 0 := Nat.cast_ne_zero.mpr (List.length_pos_iff.mpr hmore).ne'
  simp only [sumOver, add, mean, div_mul_cancel₀ _ hcount, List.map_append, List.sum_append, List.length_append]

end Tally

/-! ## Trainers with a model -/

variable {t : Trainer α} {m : Model α} {id : Identity} {stream : Stream} {P : AnyTensor α} {loss : Loss}

/-- Under an identity a trainer has a model like the given one. -/
def HoldsAt (t : Trainer α) (id : Identity) (m : Model α) : Prop := ∃ m', t.session.model? id = some m' ∧ m.Alike m'

/-- The model of a trainer is like the given one. -/
def Holds (t : Trainer α) (m : Model α) : Prop := ∃ id, t.compiler.model = some id ∧ t.HoldsAt id m

/-- What the model predicts is predicted, and the model is left. -/
theorem HoldsAt.predict (h : t.HoldsAt id m) {x : AnyTensor α} (hx : (m.predict x stream).1.1 = .ok P) :
    ∃ t', attempt (Session.visit id (Model.predict x)) t = (.ok P, t') ∧ t'.HoldsAt id m ∧ t'.compiler = t.compiler := by
  obtain ⟨m', hmodel, halike⟩ := h
  have hresult : (m'.predict x t.session.stream).1.1 = .ok P := (halike.result_predict x stream _).trans hx
  obtain ⟨hplan, hdisposed, hoperators⟩ := m'.bare_predict x t.session.stream
  have hleft : m.Alike (m'.predict x t.session.stream).1.2 :=
    ⟨hplan ▸ halike.plan, hdisposed.trans halike.disposed, hoperators.trans halike.operators⟩
  have hvisit : Session.visit id (Model.predict x) t.session = (.ok P, { t.session with
      stream := (m'.predict x t.session.stream).2
      models := Session.replace id (m'.predict x t.session.stream).1.2 t.session.models }) := by
    rw [Session.visit, hmodel, ← hresult]
    rfl
  refine ⟨_, attempt_eq_ok.mpr ⟨congrArg Prod.fst hvisit, rfl⟩, ?_, rfl⟩
  rw [hvisit]
  exact ⟨_, Session.lookup_replace_self hmodel, hleft⟩

theorem metrics_eq {targets : AnyTensor α} {a b : α} (ha : loss.value? P targets = some a)
    (hb : accuracy? P targets = some b) : metrics loss P targets = .ok ⟨a, b⟩ := by
  rw [metrics, ha, hb]
  rfl

/-! ## Batches -/

/-- A batch of some samples, of which two functions have the means that are its metrics under a model. -/
structure Scored (m : Model α) (loss : Loss) (cost right : β → α) (samples : List β) (batch : LabelledSamples α) :
    Prop where
  nonempty : samples ≠ []
  length : batch.inputs.length = samples.length
  metrics : ∃ P, (∃ stream, (m.predict batch.inputs.toTensor stream).1.1 = .ok P) ∧
    metrics loss P batch.labels.toTensor = .ok (Tally.sumOver cost right samples).mean

/-- Batches are evaluated to the sums of those functions over the samples of all of them. -/
theorem evaluateBatches_eq {α : Type} [ExactField α] [CharZero α] {m : Model α} {cost right : β → α}
    {batch : List β → LabelledSamples α} {pieces : List (List β)}
    (hpieces : ∀ piece ∈ pieces, Scored m loss cost right piece (batch piece)) (done : List β) {t : Trainer α}
    (ht : t.HoldsAt id m) : ∃ t', evaluateBatches id loss (pieces.map batch) (.sumOver cost right done) t =
      (.ok (.sumOver cost right (done ++ pieces.flatten)), t') ∧ t'.HoldsAt id m ∧ t'.compiler = t.compiler := by
  -- `done` are the samples of the batches before, and `t` is the trainer that those have left.
  induction pieces generalizing done t with
  | nil =>
      rw [List.flatten_nil, List.append_nil]
      exact ⟨t, rfl, ht, rfl⟩
  | cons piece pieces ih =>
      obtain ⟨hpiece, hpieces⟩ := List.forall_mem_cons.mp hpieces
      obtain ⟨P, ⟨stream, hP⟩, hmetrics⟩ := hpiece.metrics
      obtain ⟨t₁, hpredict, ht₁, hcompiler₁⟩ := ht.predict hP
      obtain ⟨t₂, hrest, ht₂, hcompiler₂⟩ := ih hpieces (done ++ piece) ht₁
      refine ⟨t₂, ?_, ht₂, hcompiler₂.trans hcompiler₁⟩
      have hadd := Tally.add_sumOver cost right done hpiece.nonempty
      rw [List.map_cons, evaluateBatches, List.flatten_cons, ← List.append_assoc]
      refine Attempt.bind_eq_ok.mpr ⟨P, t₁, hpredict, ?_⟩
      refine Attempt.bind_eq_ok.mpr ⟨_, t₁, outcome_eq_ok.mpr ⟨hmetrics, rfl⟩, ?_⟩
      rw [hpiece.length, hadd]
      exact hrest

/-! ## Samples of a batch -/

section

variable {α : Type} [ExactField α] {m : Model α} {s u : Dims} {n : Nat} {x : Tensor α (n :: s)} {p y : Tensor α (n :: u)}
  {cost right : Tensor α u → Tensor α u → α}

/-- What a function makes of the prediction and the label of every sample. -/
def rowwise (f : Tensor α u → Tensor α u → α) (p y : Tensor α (n :: u)) (i : Fin n) : α := f (p.row i) (y.row i)

omit [ExactField α] in
@[simp] theorem rowwise_permute (f : Tensor α u → Tensor α u → α) (σ : Equiv.Perm (Fin n)) (i : Fin n) :
    rowwise f (p.permute σ) (y.permute σ) i = rowwise f p y (σ i) := by
  simp only [rowwise, row_permute]

omit [ExactField α] in
@[simp] theorem rowwise_gather (f : Tensor α u → Tensor α u → α) {k : Nat} (places : Fin k → Fin n) (j : Fin k) :
    rowwise f (p.gather places) (y.gather places) j = rowwise f p y (places j) := by
  simp only [rowwise, row_gather]

/-- The means of what two functions make of the samples of a batch. -/
def means (cost right : Tensor α u → Tensor α u → α) (p y : Tensor α (n :: u)) : Metrics α :=
  ⟨(∑ i, rowwise cost p y i) / (n : α), (∑ i, rowwise right p y i) / (n : α)⟩

/-- The metrics of every batch are means of these functions. -/
def Averages (loss : Loss) (cost right : Tensor α u → Tensor α u → α) : Prop :=
  ∀ {k : Nat} (p y : Tensor α (k :: u)), loss.value? ⟨k :: u, p⟩ ⟨k :: u, y⟩ = some (means cost right p y).loss ∧
    accuracy? ⟨k :: u, p⟩ ⟨k :: u, y⟩ = some (means cost right p y).accuracy

theorem exists_averages (loss : Loss) (hu : u ≠ []) : ∃ cost right : Tensor α u → Tensor α u → α,
    Averages loss cost right := by
  obtain ⟨cost, hcost⟩ := loss.value?_eq_mean (α := α) hu
  obtain ⟨right, hright⟩ := accuracy?_eq_mean (α := α) hu
  exact ⟨cost, right, fun p y => ⟨hcost p y, hright p y⟩⟩

/-- Means do not hang on the order of the samples. -/
theorem means_permute (σ : Equiv.Perm (Fin n)) : means cost right (p.permute σ) (y.permute σ) = means cost right p y := by
  have hcost := Equiv.sum_comp σ (rowwise cost p y)
  have hright := Equiv.sum_comp σ (rowwise right p y)
  simp only [means, rowwise_permute, hcost, hright]

theorem means_gather (places : List (Fin n)) :
    means cost right (p.gather places.get) (y.gather places.get) =
      (Tally.sumOver (rowwise cost p y) (rowwise right p y) places).mean := by
  have hcost := Fin.sum_univ_fun_getElem places (rowwise cost p y)
  have hright := Fin.sum_univ_fun_getElem places (rowwise right p y)
  simp only [means, Tally.mean, Tally.sumOver, rowwise_gather, ← hcost, ← hright]
  rfl

theorem means_eq_sumOver : means cost right p y =
    (Tally.sumOver (rowwise cost p y) (rowwise right p y) (List.finRange n)).mean := by
  simp only [means, Tally.mean, Tally.sumOver, Fin.sum_univ_def, List.length_finRange]

/-- A model predicts some rows for the samples of a batch, however these are put together. -/
def PredictsRows (m : Model α) (x : Tensor α (n :: s)) (p : Tensor α (n :: u)) : Prop :=
  ∀ {k : Nat}, 0 < k → ∀ places : Fin k → Fin n,
    ∃ stream, (m.predict ⟨k :: s, x.gather places⟩ stream).1.1 = .ok ⟨k :: u, p.gather places⟩

theorem PredictsRows.permute (h : PredictsRows m x p) (σ : Equiv.Perm (Fin n)) :
    PredictsRows m (x.permute σ) (p.permute σ) := by
  intro k hk places
  have hgather {s : Dims} (z : Tensor α (n :: s)) : (z.permute σ).gather places = z.gather fun j => σ (places j) :=
    ext_row fun j => by simp only [row_gather, row_permute]
  rw [hgather, hgather]
  exact h hk _

/-- The samples along the first axis of two tensors. -/
def labelled (x : Tensor α (n :: s)) (y : Tensor α (n :: u)) : LabelledSamples α :=
  ⟨⟨s, Vector.toArray x⟩, ⟨u, Vector.toArray y⟩⟩

/-- Some of the samples have the means of what they cost as their metrics. -/
theorem PredictsRows.scored_pick (h : PredictsRows m x p) (hmeans : Averages loss cost right) (y : Tensor α (n :: u))
    {places : List (Fin n)} (hplaces : places ≠ []) :
    Scored m loss (rowwise cost p y) (rowwise right p y) places ((labelled x y).pick (places.map Fin.val)) := by
  have hinputs : ((labelled x y).pick (places.map Fin.val)).inputs.toTensor = _ := toTensor_pick x places
  have hlabels : ((labelled x y).pick (places.map Fin.val)).labels.toTensor = _ := toTensor_pick y places
  obtain ⟨hloss, haccuracy⟩ := hmeans (p.gather places.get) (y.gather places.get)
  refine ⟨hplaces, ?_, ⟨_, p.gather places.get⟩, ?_, ?_⟩
  · exact congrArg (fun z : AnyTensor α => z.dims.headD 0) hinputs
  · rw [hinputs]
    exact h (List.length_pos_iff.mpr hplaces) _
  · rw [hlabels, metrics_eq hloss haccuracy, means_gather]

/-! ## All samples -/

/-- Evaluated with batches of any size, a trainer that has a model comes to some metrics. -/
def Evaluates (m : Model α) (inputs labels : AnyTensor α) (loss : Loss) (M : Metrics α) : Prop :=
  ∀ {b : Nat}, 1 ≤ b → ∀ t : Trainer α, t.Holds m →
    ∃ t', evaluate inputs labels (.text loss.name) (.int b) t = (.ok M, t') ∧ t'.Holds m

omit [ExactField α] in
/-- An evaluation takes the samples in their own order. -/
theorem epoch_labelled {b : Nat} (hb : 0 < b) (x : Tensor α (n :: s)) (y : Tensor α (n :: u)) (stream : Stream) :
    ((Loader.mk (labelled x y) b hb false false).epoch stream).1 =
      (chunks b (List.finRange n)).map fun places => (labelled x y).pick (places.map Fin.val) := by
  have hlength : (labelled x y).inputs.length = n := Vector.size_toArray x
  have horder : ((Loader.mk (labelled x y) b hb false false).order stream).1 = (List.finRange n).map Fin.val := by
    rw [Loader.order_of_not_shuffle rfl, List.map_coe_finRange_eq_range]
    exact congrArg List.range hlength
  rw [Loader.epoch_eq rfl, horder, chunks_map, List.map_map]
  rfl

theorem PredictsRows.evaluateOn_eq [CharZero α] (h : PredictsRows m x p) (hn : 1 ≤ n) (hmeans : Averages loss cost right)
    (y : Tensor α (n :: u)) {b : Nat} (hb : 1 ≤ b) {t : Trainer α} (ht : t.HoldsAt id m) : ∃ t',
      evaluateOn id (labelled x y) loss (.int b) t = (.ok (means cost right p y), t') ∧ t'.HoldsAt id m ∧
        t'.compiler = t.compiler := by
  have hpaired : (labelled x y).inputs.length = (labelled x y).labels.length :=
    (Vector.size_toArray x).trans (Vector.size_toArray y).symm
  have hloader := Loader.ofSettings_int (labelled x y) hpaired hb false false
  let l := Loader.mk (labelled x y) b hb false false
  let t₁ : Trainer α := { t with session := (Session.draw l.epoch t.session).2 }
  have hpieces : ∀ places ∈ chunks b (List.finRange n),
      Scored m loss (rowwise cost p y) (rowwise right p y) places ((labelled x y).pick (places.map Fin.val)) :=
    fun places hplaces => h.scored_pick hmeans y (ne_nil_of_mem_chunks hplaces)
  have ht₁ : t₁.HoldsAt id m := ht
  obtain ⟨t', hbatches, ht', hcompiler⟩ := evaluateBatches_eq hpieces [] ht₁
  rw [List.nil_append, flatten_chunks] at hbatches
  refine ⟨t', ?_, ht', hcompiler⟩
  refine Attempt.bind_eq_ok.mpr ⟨l, t, outcome_eq_ok.mpr ⟨hloader, rfl⟩, ?_⟩
  refine Attempt.bind_eq_ok.mpr ⟨_, t₁, perform_eq_ok.mpr (Prod.ext (epoch_labelled hb x y t.session.stream) rfl), ?_⟩
  refine Attempt.bind_eq_ok.mpr ⟨_, t', hbatches, ?_⟩
  have hseen : (Tally.sumOver (rowwise cost p y) (rowwise right p y) (List.finRange n)).seen ≠ 0 := by
    simp only [Tally.sumOver, List.length_finRange]
    omega
  rw [if_neg hseen, means_eq_sumOver]
  rfl

theorem PredictsRows.evaluates [CharZero α] (h : PredictsRows m x p) (hn : 1 ≤ n) (hmeans : Averages loss cost right)
    (y : Tensor α (n :: u)) : Evaluates m ⟨n :: s, x⟩ ⟨n :: u, y⟩ loss (means cost right p y) := by
  intro b hb t ⟨id, hcompiler, ht⟩
  obtain ⟨t', hrun, ht', hkept⟩ := h.evaluateOn_eq hn hmeans y hb ht
  have hmodel : requireModel t = (.ok id, t) := by
    rw [requireModel, Attempt.run_bind, Attempt.run_get]
    simp only [hcompiler]
    rfl
  have hloss : (TrainingConfig.nameOf (.text loss.name) >>= Loss.choose) = .ok loss := by
    cases loss <;> rfl
  refine ⟨t', ?_, id, hkept ▸ hcompiler, ht'⟩
  refine Attempt.bind_eq_ok.mpr ⟨id, t, hmodel, ?_⟩
  refine Attempt.bind_eq_ok.mpr ⟨loss, t, outcome_eq_ok.mpr ⟨hloss, rfl⟩, ?_⟩
  exact Attempt.bind_eq_ok.mpr ⟨labelled x y, t, outcome_eq_ok.mpr ⟨rfl, rfl⟩, hrun⟩

/-- An evaluation hangs neither on its batches nor on the order of its samples, in exact arithmetic.  Let a design be
compiled with the stock builders, and let anything become of the model: passes, ways back, and parameters changed at will.
Let it predict something for `n` samples.  For labels of the shape of the predictions, every loss and every batch size of at
least one, a trainer with that model evaluates to the loss and the accuracy of all predictions against all labels as one
batch.  So it does with inputs and labels in another order, the same for both, and it has that model still. -/
theorem evaluates_whole [CharZero α] {design : Session.Design} (h : Session.Compiles design m) (moves : List (Model.Move α))
    (start stream : Stream) (hn : 1 ≤ n) (x : Tensor α (n :: s)) {P : AnyTensor α}
    (hP : ((m.after moves start).1.predict ⟨n :: s, x⟩ stream).1.1 = .ok P) (loss : Loss) :
    let run := (m.after moves start).1
    ∃ (u : Dims) (p : Tensor α (n :: u)), P = ⟨n :: u, p⟩ ∧ ∀ y : Tensor α (n :: u), ∃ M : Metrics α,
      loss.value? P ⟨n :: u, y⟩ = some M.loss ∧ accuracy? P ⟨n :: u, y⟩ = some M.accuracy ∧
        Evaluates run ⟨n :: s, x⟩ ⟨n :: u, y⟩ loss M ∧
        ∀ σ : Equiv.Perm (Fin n), Evaluates run ⟨n :: s, x.permute σ⟩ ⟨n :: u, y.permute σ⟩ loss M := by
  intro run
  have hmade : run.Made := ((Model.made_of_compiles h).2.after moves start).2
  obtain ⟨u, p, hu, rfl, hrows⟩ := (hmade.sampleWise_predict s stream).gather hn (toOption_eq_some.mpr hP)
  have hpredicts : PredictsRows run x p := fun hk places => ⟨stream, toOption_eq_some.mp (hrows hk places)⟩
  have hne : u ≠ [] := by
    have houtput : run.plan.output ≠ [] := Head.finalShape_ne_nil hmade.chained hmade.opens.input_ne_nil
    rwa [← List.length_pos_iff, hu, List.length_pos_iff]
  obtain ⟨cost, right, hmeans⟩ := exists_averages (α := α) loss hne
  refine ⟨u, p, rfl, fun y => ?_⟩
  obtain ⟨hloss, haccuracy⟩ := hmeans p y
  refine ⟨means cost right p y, hloss, haccuracy, hpredicts.evaluates hn hmeans y, fun σ => ?_⟩
  rw [← means_permute σ]
  exact PredictsRows.evaluates (hpredicts.permute σ) hn hmeans (y.permute σ)

end

/-- Evaluated with two images in a batch or with all three in one, a trainer comes to the same metrics. -/
theorem evaluates_whole_images :
    let t : Trainer ℝ := {
      session := (Session.compile Model.convolved (Session.start 7 true)).2
      compiler := { state := .compiled, model := some 0 } }
    let images : AnyTensor ℝ := ⟨[3, 4, 4], Tensor.fill 1 _⟩
    let labels : AnyTensor ℝ := ⟨[3, 3], Tensor.fill 0 _⟩
    ∃ M, (evaluate images labels (.text "meanSquaredError") (.int 2) t).1 = .ok M ∧
      (evaluate images labels (.text "meanSquaredError") (.int 3) t).1 = .ok M := by
  intro t images labels
  have hpredicts : (t.session.model? 0).map (fun m =>
      AnyTensor.dims <$> ((m.after [] (Stream.ofSeed 3)).1.predict images (Stream.ofSeed 5)).1.1) = some (.ok [3, 3]) := rfl
  obtain ⟨m, hheld, hm⟩ := Option.map_eq_some_iff.mp hpredicts
  obtain ⟨P, hP, hdims⟩ := map_eq_ok.mp hm
  have hcompiles : Session.Compiles Model.convolved m := ⟨Session.start 7 true, 0, rfl, rfl, hheld⟩
  have halike : m.Alike m := ⟨.refl m.plan, rfl, rfl⟩
  have hholds : t.Holds m := ⟨0, rfl, m, hheld, halike⟩
  obtain ⟨u, p, rfl, hall⟩ :=
    evaluates_whole hcompiles [] (Stream.ofSeed 3) (Stream.ofSeed 5) (by decide) _ hP .meanSquaredError
  obtain rfl : u = [3] := (List.cons.inj hdims).2
  obtain ⟨M, _, _, hevaluates, _⟩ := hall (Tensor.fill 0 _)
  obtain ⟨_, htwo, _⟩ := hevaluates (show 1 ≤ 2 by decide) t hholds
  obtain ⟨_, hthree, _⟩ := hevaluates (show 1 ≤ 3 by decide) t hholds
  exact ⟨M, congrArg Prod.fst htwo, congrArg Prod.fst hthree⟩

end Trainer

end LayerStack
