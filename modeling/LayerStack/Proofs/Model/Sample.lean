import LayerStack.Proofs.Model.Dropout
import LayerStack.Proofs.Operator.Sample

/-!
# LayerStack.Proofs.Model.Sample

Inference is sample-independent.

What holds of every operator (`Operator.sampleWise_forward`) holds along a chain, and of what prepares a batch for it: a
prediction is one function of a sample, run over all samples of a batch (`Made.sampleWise_predict`).  So it is for all
weights, and what was predicted before plays no part (`result_predict_after`).  The main statement is `predict_append`.
-/

namespace LayerStack

open AnyTensor

variable {α : Type} [Scalar α] {s : Dims}

/-! ## Outcomes -/

omit [Scalar α] in
/-- Of both batches something comes where something comes of each, and it is the one and then the other. -/
theorem appended_outcomes {first second both : Except RunError (AnyTensor α)}
    (h : Appended first.toOption second.toOption both.toOption) :
    ((∃ w, both = .ok w) ↔ (∃ u, first = .ok u) ∧ ∃ v, second = .ok v) ∧
      ∀ u v, first = .ok u → second = .ok v → ∃ w, both = .ok w ∧ u.append? v = some w := by
  simp only [← toOption_eq_some]
  generalize first.toOption = o, second.toOption = p, both.toOption = q at h ⊢
  cases h with
  | both happend =>
      refine ⟨by simp, fun u v hu hv => ?_⟩
      obtain rfl := Option.some.inj hu
      obtain rfl := Option.some.inj hv
      exact ⟨_, rfl, happend⟩
  | first v => simp
  | second u => simp

/-! ## Chains -/

namespace Chain

variable {os : List (Operator α)} {layers : List ResolvedLayer} {index : Nat} {shape : Shape}

/-- What a chain passes on outside of training is what its first operator passes on, and then what the others do. -/
theorem toOption_forward_cons (o : Operator α) (os : List (Operator α)) (x : AnyTensor α) (stream : Stream) :
    (forward false (o :: os) x stream).1.1.toOption =
      (o.forward false x stream).1.1.toOption.bind fun y => (forward false os y stream).1.1.toOption := by
  cases hfirst : (o.forward false x stream).1.1 with
  | error e =>
      rw [forward_cons_of_error hfirst]
      rfl
  | ok y =>
      -- The others begin where the first one left the stream, but draw nothing.
      rw [forward_cons_of_ok hfirst]
      exact congrArg (fun run => run.1.1.toOption) (forward_inference os y (o.forward false x stream).2 stream)

/-- A chain made for layers in a row treats every sample by itself. -/
theorem sampleWise_forward (hchained : ShapePlan.Chained index shape layers) (hmade : Operator.AllMade layers os)
    (hne : shape ≠ []) (hs : s.length = shape.length) (stream : Stream) :
    SampleWise s (((layers.getLast?).map (·.output)).getD shape).length fun x =>
      (forward false os x stream).1.1.toOption := by
  induction hchained generalizing os s with
  | nil =>
      cases hmade
      exact hs ▸ sampleWise_id s
  | @cons index layer layers _ hsound hrest ih =>
      cases hmade with
      | @cons _ o _ os ho hos =>
          have hne' := LayerConfig.ne_nil_of_makes hne hsound.makes
          have hfirst := Operator.sampleWise_forward ho hsound.makes hne hs stream
          rw [getD_output_cons]
          exact (hfirst.bind fun t ht => ih hos hne' ht).congr fun x => toOption_forward_cons o os _ stream

end Chain

namespace Model

variable {m : Model α}

/-! ## Batches -/

omit [Scalar α] in
/-- Every sample gets its channel axis by itself. -/
theorem sampleWise_appendAxis (s : Dims) : SampleWise s (s.length + 1) fun x : AnyTensor α => some (appendAxis x) :=
  sampleWise_join (fun a => Tensor.ofEntries fun _ => a) s

omit [Scalar α] in
/-- Whether a batch is accepted hangs on the axes of a sample. -/
theorem sampleWise_prepare {plan : ShapePlan} (hopens : ShapePlan.Opens plan.declared plan.input) (s : Dims) :
    SampleWise s plan.input.length fun x : AnyTensor α => (prepare plan x).toOption := by
  have hprepare {n : Nat} (x : Tensor α (n :: s)) : (prepare plan ⟨n :: s, x⟩).toOption =
      if s.map Int.ofNat = plan.input then some ⟨n :: s, x⟩
      else if plan.promoted && s.map Int.ofNat == plan.declared then some (appendAxis ⟨n :: s, x⟩) else none := by
    unfold prepare
    simp only [List.drop_succ_cons, List.drop_zero]
    split
    · rfl
    · split <;> rfl
  by_cases hinput : s.map Int.ofNat = plan.input
  · have hlength : s.length = plan.input.length := by rw [← hinput, List.length_map]
    exact hlength ▸ (sampleWise_id s).congr fun x => by rw [hprepare, if_pos hinput]
  · cases hdeclared : plan.promoted && s.map Int.ofNat == plan.declared with
    | true =>
        obtain ⟨hpromoted, hsample⟩ := Bool.and_eq_true_iff.mp hdeclared
        have hne : plan.input ≠ plan.declared := by simpa [ShapePlan.promoted] using hpromoted
        have hlength : s.length + 1 = plan.input.length := by
          rcases hopens.input_eq with heq | ⟨_, heq⟩
          · exact absurd heq hne
          · rw [heq, ← eq_of_beq hsample]
            simp
        exact hlength ▸ (sampleWise_appendAxis s).congr fun x => by rw [hprepare, if_neg hinput, hdeclared, if_pos rfl]
    | false => exact sampleWise_none _ fun x => by rw [hprepare, if_neg hinput, hdeclared]; rfl

/-! ## Predictions -/

/-- A made model treats every sample by itself, of whatever shape it is. -/
theorem Made.sampleWise_predict (h : m.Made) (s : Dims) (stream : Stream) :
    SampleWise s m.plan.output.length fun x => (m.predict x stream).1.1.toOption := by
  have hchain (t : Dims) (ht : t.length = m.plan.input.length) :=
    Chain.sampleWise_forward h.chained h.operators h.opens.input_ne_nil ht stream
  refine ((sampleWise_prepare h.opens s).bind hchain).congr fun x => ?_
  unfold predict
  cases hx : prepare m.plan ⟨_ :: s, x⟩ with
  | error e =>
      rw [forward_of_error h.alive hx]
      rfl
  | ok x' =>
      rw [forward_eq h.alive hx]
      rfl

/-- A model that was asked for predictions is alike. -/
theorem alike_predict (m : Model α) (x : AnyTensor α) (stream : Stream) : m.Alike (m.predict x stream).1.2 := by
  obtain ⟨hplan, hdisposed, hoperators⟩ := m.bare_predict x stream
  exact ⟨hplan ▸ .refl m.plan, hdisposed, hoperators⟩

/-- What was predicted before plays no part in a prediction. -/
theorem result_predict_after (m : Model α) (xs : List (AnyTensor α)) (x : AnyTensor α) (start stream stream' : Stream) :
    ((m.after (xs.map (.forward false)) start).1.predict x stream).1.1 = (m.predict x stream').1.1 := by
  induction xs generalizing m start with
  | nil => exact congrArg (fun run => run.1.1) (m.predict_eq x stream stream')
  | cons x' xs ih =>
      have hrest := ih (m.predict x' start).1.2 (m.predict x' start).2
      exact hrest.trans ((alike_predict m x' start).result_predict x stream' stream')

/-! ## Two batches -/

/-- Inference is sample-independent.  Let a design be compiled with the stock builders, and let anything become of the
model: passes, ways back, and parameters changed at will.  For two batches of at least one sample each, of samples on the
same axes, the model predicts for all samples together just where it predicts for either batch, and then it predicts for
them what it predicts for the first batch, and then for the second.  It may be asked in any order, and for other
predictions in between.  Of the axes of a sample nothing is assumed: samples that the model does not accept fail alike. -/
theorem predict_append {design : Session.Design} (h : Session.Compiles design m) (moves : List (Move α))
    (start : Stream) {a b : Nat} (ha : 1 ≤ a) (hb : 1 ≤ b) (x : Tensor α (a :: s)) (y : Tensor α (b :: s))
    (before between behind : List (AnyTensor α)) (stream stream' stream'' : Stream) :
    let run := (m.after moves start).1
    let infer (history : List (AnyTensor α)) (batch : AnyTensor α) (stream : Stream) :=
      ((run.after (history.map (.forward false)) stream).1.predict batch stream).1.1
    let first := infer before ⟨a :: s, x⟩ stream
    let second := infer between ⟨b :: s, y⟩ stream'
    let both := infer behind ⟨(a + b) :: s, x.append y⟩ stream''
    ((∃ w, both = .ok w) ↔ (∃ u, first = .ok u) ∧ ∃ v, second = .ok v) ∧
      ∀ u v, first = .ok u → second = .ok v → ∃ w, both = .ok w ∧ u.append? v = some w := by
  intro run infer first second both
  have hrun : run.Made := ((made_of_compiles h).2.after moves start).2
  have hinfer (history : List (AnyTensor α)) (batch : AnyTensor α) (stream : Stream) :
      infer history batch stream = (run.predict batch start).1.1 := result_predict_after run history batch _ _ _
  have happended : Appended first.toOption second.toOption both.toOption := by
    simp only [first, second, both, hinfer]
    exact (hrun.sampleWise_predict s start).appended ha hb x y
  exact appended_outcomes happended

/-- After a pass in training, what is predicted for three images is what is predicted for the first, and then for the
other two. -/
theorem predict_append_images :
    ∃ m : Model Float, Session.Compiles convolved m ∧
      let one : Tensor Float [1, 4, 4] := Tensor.fill 1 _
      let two : Tensor Float [2, 4, 4] := Tensor.fill 2 _
      let run := (m.after [.forward true ⟨_, two⟩] (Stream.ofSeed 3)).1
      let infer (x : AnyTensor Float) := (run.predict x (Stream.ofSeed 5)).1.1
      ∃ u v w, infer ⟨_, one⟩ = .ok u ∧ infer ⟨_, two⟩ = .ok v ∧ infer ⟨_, one.append two⟩ = .ok w ∧
        u.append? v = some w := by
  let one : Tensor Float [1, 4, 4] := Tensor.fill 1 _
  let two : Tensor Float [2, 4, 4] := Tensor.fill 2 _
  let infer (m : Model Float) (x : AnyTensor Float) :=
    ((m.after [.forward true ⟨_, two⟩] (Stream.ofSeed 3)).1.predict x (Stream.ofSeed 5)).1.1
  obtain ⟨m, hm, hone, htwo⟩ : ∃ m : Model Float, Session.Compiles convolved m ∧
      (infer m ⟨_, one⟩).toOption.isSome ∧ (infer m ⟨_, two⟩).toOption.isSome :=
    ⟨_, ⟨Session.start 7 true, 0, rfl, rfl, rfl⟩, rfl, rfl⟩
  obtain ⟨u, hu⟩ := Option.isSome_iff_exists.mp hone
  obtain ⟨v, hv⟩ := Option.isSome_iff_exists.mp htwo
  obtain ⟨_, hboth⟩ := predict_append hm [.forward true ⟨_, two⟩] (Stream.ofSeed 3) (by decide) (by decide) one two
    [] [] [] (Stream.ofSeed 5) (Stream.ofSeed 5) (Stream.ofSeed 5)
  obtain ⟨w, hw, happend⟩ := hboth u v (toOption_eq_some.mp hu) (toOption_eq_some.mp hv)
  exact ⟨m, hm, u, v, w, toOption_eq_some.mp hu, toOption_eq_some.mp hv, hw, happend⟩

end Model

end LayerStack
