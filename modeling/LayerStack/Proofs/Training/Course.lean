import LayerStack.Proofs.Loader
import LayerStack.Proofs.Training.Kept
import LayerStack.Scalar.Machine
import Mathlib.Algebra.GroupWithZero.Nat

/-!
# LayerStack.Proofs.Training.Course

The course of a training run: its epochs, and the steps of every epoch.

A run is followed along the operations that it is made of.  Its `strides` over some batches are the steps it takes, up to
one that fails or that is followed by a request to stop; a `Course` is what becomes of an epoch.  A run that comes to its
end has taken what these say (`taken_of_runBatches`, `runEpoch_eq_ok`), and none takes anything else.
-/

namespace LayerStack

open Attempt

variable {α : Type}

/-- A step of a run: the batch it took, and what came of it. -/
structure Stride (α : Type) where
  batch : LabelledSamples α
  result : Except Failure (Metrics α × TrainingRun α)

/-- The metrics of a step that succeeded, with the length of its batch. -/
def Stride.weighted? (stride : Stride α) : Option (Metrics α × Nat) :=
  stride.result.toOption.map fun (m, _) => (m, stride.batch.inputs.length)

/-- An epoch of a run: the batches it was to go through, the steps it took, and the samples it was validated on with what
came of that. -/
structure Course (α : Type) where
  epoch : Nat
  batches : List (LabelledSamples α)
  strides : List (Stride α)
  validation : Option (LabelledSamples α × Except Failure (Metrics α))

namespace Trainer

variable [Scalar α]

/-! ## Following a run -/

/-- The steps over some batches. -/
def strides (signals : StopSignals) : List (LabelledSamples α) → TrainingRun α → Trainer α → List (Stride α)
  | [], _, _ => []
  | batch :: batches, run, t =>
    if t.stopRequested then []
    else
      match step run batch t with
      | (.error e, _) => [⟨batch, .error e⟩]
      | (.ok (m, run'), t') =>
        ⟨batch, .ok (m, run')⟩ :: strides signals batches run' (stopIf (signals.afterStep run'.steps) t').2

/-- The metrics of a run on its held-out samples. -/
def check (run : TrainingRun α) (samples : LabelledSamples α) : Attempt (Trainer α) (Metrics α) := do
  evaluateOn (← requireModel) samples run.config.loss run.config.batchSize

/-- The next epoch of a run. -/
def course (signals : StopSignals) (run : TrainingRun α) (t : Trainer α) : Course α :=
  let (batches, t) := inSession (Session.draw run.loader.epoch) t
  { epoch := run.epoch + 1
    batches
    strides := strides signals batches run t
    validation :=
      match runBatches signals batches run .empty t with
      | (.ok (run', tally), t') =>
        if tally.seen = 0 then none else run.validation.map fun samples => (samples, (check run' samples t').1)
      | (.error _, _) => none }

/-- The run that goes on, and where, if there is one. -/
def opening (t : Trainer α) : Progress α → Option (TrainingRun α × Trainer α)
  | .waiting request =>
    match begin request t with
    | (.ok run, t') => some (run, t')
    | (.error _, _) => none
  | .paused run => if t.stopRequested then none else some (run, t)
  | .ended _ => none

/-- The next epochs of a run, as many as `fuel` allows. -/
def courses (signals : StopSignals) : (fuel : Nat) → Progress α → Trainer α → List (Course α)
  | 0, _, _ => []
  | fuel + 1, p, t =>
    ((opening t p).filter fun (run, _) => run.epoch < run.epochs).toList.map (fun (run, t) => course signals run t) ++
      match next signals p t with
      | (.ok (some event, p'), t') => courses signals fuel p' (stopIf (signals.atEpochEnd event.epoch) t').2
      | _ => []

variable {signals : StopSignals} {batches : List (LabelledSamples α)} {batch : LabelledSamples α}
  {run run' : TrainingRun α} {tally tally' : Tally α} {t t' : Trainer α} {m : Metrics α}

/-! ## Parts -/

omit [Scalar α] in
theorem stopIf_eq (now : Bool) (t : Trainer α) :
    stopIf now t = (.ok (), { t with stopRequested := t.stopRequested || now }) := by
  cases now with
  | false =>
      rw [Bool.or_false]
      rfl
  | true =>
      rw [Bool.or_true]
      rfl

/-- What is noted of a run, and the compiler and the data, are as they were. -/
structure Unnoted (t t' : Trainer α) : Prop where
  stopRequested : t'.stopRequested = t.stopRequested
  training : t'.training = t.training
  compiler : t'.compiler = t.compiler
  loaded : t'.loaded = t.loaded

omit [Scalar α] in
theorem Unnoted.trans {t'' : Trainer α} (h : Unnoted t t') (h' : Unnoted t' t'') : Unnoted t t'' :=
  ⟨h'.stopRequested.trans h.stopRequested, h'.training.trans h.training, h'.compiler.trans h.compiler,
    h'.loaded.trans h.loaded⟩

/-- Steps and evaluations only change the session. -/
theorem stepping_unnoted : Stepping (Unnoted : Trainer α → Trainer α → Prop) where
  refl _ := ⟨rfl, rfl, rfl, rfl⟩
  trans := Unnoted.trans
  told _ _ := ⟨rfl, rfl, rfl, rfl⟩
  drawn _ _ := ⟨rfl, rfl, rfl, rfl⟩
  pass _ _ _ _ := ⟨rfl, rfl, rfl, rfl⟩
  wayBack _ _ _ := ⟨rfl, rfl, rfl, rfl⟩
  asked _ _ _ := ⟨rfl, rfl, rfl, rfl⟩
  moved _ _ := by
    rintro ⟨gradients, parameters, _, rfl⟩
    exact ⟨rfl, rfl, rfl, rfl⟩

/-! ## Steps -/

/-- A step of an optimizer that succeeds is counted. -/
theorem count_of_step {o : Optimizer α} {gradients : List (String × Option (AnyTensor α))} {rate : Option Value}
    {parameters : NamedTensors α} (h : (o.step gradients rate parameters).1 = .ok ()) :
    (o.step gradients rate parameters).2.2.count = o.count + 1 := by
  rw [Optimizer.step] at h ⊢
  cases hslots : o.slots with
  | none =>
      simp only [hslots] at h
      contradiction
  | some slots => rfl

/-- A step that succeeds takes its run one step further, and its optimizer too. -/
theorem step_eq_ok (h : step run batch t = (.ok (m, run'), t')) :
    run' = { run with optimizer := run'.optimizer, steps := run.steps + 1 } ∧
      run'.optimizer.count = run.optimizer.count + 1 := by
  rw [step] at h
  obtain ⟨predictions, _, _, h⟩ := Attempt.bind_eq_ok.mp h
  obtain ⟨_, _, _, h⟩ := Attempt.bind_eq_ok.mp h
  obtain ⟨gradient, _, _, h⟩ := Attempt.bind_eq_ok.mp h
  obtain ⟨_, _, _, h⟩ := Attempt.bind_eq_ok.mp h
  obtain ⟨gradients, _, _, h⟩ := Attempt.bind_eq_ok.mp h
  obtain ⟨parameters, _, _, h⟩ := Attempt.bind_eq_ok.mp h
  obtain ⟨clipped, _, _, h⟩ := Attempt.bind_eq_ok.mp h
  obtain ⟨_, _, _, h⟩ := Attempt.bind_eq_ok.mp h
  obtain ⟨_, _, houtcome, h⟩ := Attempt.bind_eq_ok.mp h
  have hresult := (outcome_eq_ok.mp houtcome).1
  obtain ⟨rfl, rfl⟩ := Prod.mk.inj (Except.ok.inj (Prod.mk.inj h).1)
  exact ⟨rfl, count_of_step hresult⟩

/-- What the steps come to that a run takes over some batches. -/
structure Taken (run : TrainingRun α) (tally : Tally α) (strides : List (Stride α)) (run' : TrainingRun α)
    (tally' : Tally α) : Prop where
  /-- Nothing of the run changes but its optimizer. -/
  setup : run' = { run with optimizer := run'.optimizer, steps := run.steps + strides.length }
  count : run'.optimizer.count = run.optimizer.count + strides.length
  /-- Every step succeeds, and is counted by its optimizer. -/
  succeeded : ∀ k stride, strides[k]? = some stride →
    ∃ m next, stride.result = .ok (m, next) ∧ next.optimizer.count = run.optimizer.count + (k + 1)
  tally : tally' = (strides.filterMap Stride.weighted?).foldl (fun tally (m, n) => tally.add m n) tally

theorem Taken.cons {strides : List (Stride α)} {next : TrainingRun α}
    (hnext : next = { run with optimizer := next.optimizer, steps := run.steps + 1 })
    (hcount : next.optimizer.count = run.optimizer.count + 1)
    (h : Taken next (tally.add m batch.inputs.length) strides run' tally') :
    Taken run tally (⟨batch, .ok (m, next)⟩ :: strides) run' tally' where
  setup := by
    have hsetup := h.setup
    rw [hnext] at hsetup
    rw [hsetup, List.length_cons, Nat.add_assoc, Nat.add_comm 1]
  count := by
    rw [h.count, hcount, List.length_cons]
    omega
  succeeded := by
    intro k stride hstride
    cases k with
    | zero =>
        obtain rfl := Option.some.inj hstride
        exact ⟨m, next, rfl, hcount⟩
    | succ k =>
        obtain ⟨m', next', hresult, hcount'⟩ := h.succeeded k stride hstride
        exact ⟨m', next', hresult, by rw [hcount', hcount]; omega⟩
  tally := h.tally

/-- A run over some batches that comes to its end has taken the steps there are to take. -/
theorem taken_of_runBatches (h : runBatches signals batches run tally t = (.ok (run', tally'), t')) :
    Taken run tally (strides signals batches run t) run' tally' := by
  have hnone (run : TrainingRun α) (tally : Tally α) : Taken run tally [] run tally := by
    refine ⟨rfl, rfl, fun k stride hstride => ?_, rfl⟩
    contradiction
  induction batches generalizing run tally t with
  | nil =>
      obtain ⟨rfl, rfl⟩ := Prod.mk.inj (Except.ok.inj (Prod.mk.inj h).1)
      exact hnone run tally
  | cons batch batches ih =>
      rw [runBatches, Attempt.run_bind, Attempt.run_get] at h
      rw [strides]
      by_cases hstop : t.stopRequested = true
      · simp only [hstop, if_true] at h ⊢
        obtain ⟨rfl, rfl⟩ := Prod.mk.inj (Except.ok.inj (Prod.mk.inj h).1)
        exact hnone run tally
      · simp only [hstop] at h ⊢
        obtain ⟨⟨m, next⟩, t₁, hstep, h⟩ := Attempt.bind_eq_ok.mp h
        obtain ⟨_, t₂, hstopIf, h⟩ := Attempt.bind_eq_ok.mp h
        obtain ⟨hnext, hcount⟩ := step_eq_ok hstep
        rw [hstep]
        dsimp only at hstopIf h ⊢
        rw [hstopIf]
        exact (ih h).cons hnext hcount

/-- The steps go through the batches in order. -/
theorem strides_prefix (signals : StopSignals) (batches : List (LabelledSamples α)) (run : TrainingRun α)
    (t : Trainer α) : (strides signals batches run t).map (·.batch) <+: batches := by
  induction batches generalizing run t with
  | nil => exact List.nil_prefix
  | cons batch batches ih =>
      rw [strides]
      split
      · exact List.nil_prefix
      · split
        · exact List.cons_prefix_cons.mpr ⟨rfl, List.nil_prefix⟩
        · exact List.cons_prefix_cons.mpr ⟨rfl, ih _ _⟩

/-! ## Where steps stop -/

theorem strides_of_stopped (ht : t.stopRequested = true) : strides signals batches run t = [] := by
  cases batches with
  | nil => rfl
  | cons batch batches => rw [strides, if_pos ht]

theorem runBatches_of_stopped (ht : t.stopRequested = true) :
    runBatches signals batches run tally t = (.ok (run, tally), t) := by
  cases batches with
  | nil => rfl
  | cons batch batches =>
      rw [runBatches, Attempt.run_bind, Attempt.run_get]
      simp only [ht, if_true]
      rfl

/-- How many steps are taken over some batches: all of them, or as many as there are to the first request to stop. -/
inductive Stops (signals : StopSignals) (steps length : Nat) : (taken : Nat) → (stopped : Bool) → Prop
  | never (hquiet : ∀ i, 1 ≤ i → i ≤ length → signals.afterStep (steps + i) = false) :
    Stops signals steps length length false
  | after {taken : Nat} (hpos : 1 ≤ taken) (hle : taken ≤ length)
    (hquiet : ∀ i, 1 ≤ i → i < taken → signals.afterStep (steps + i) = false)
    (hstop : signals.afterStep (steps + taken) = true) : Stops signals steps length taken true

/-- A step after which there is no request goes before the others. -/
theorem Stops.cons {steps length taken : Nat} {stopped : Bool} (h : Stops signals (steps + 1) length taken stopped)
    (hquiet : signals.afterStep (steps + 1) = false) : Stops signals steps (length + 1) (taken + 1) stopped := by
  have hshift (bound : Nat) (hrest : ∀ i, 1 ≤ i → i < bound → signals.afterStep (steps + 1 + i) = false) :
      ∀ i, 1 ≤ i → i < bound + 1 → signals.afterStep (steps + i) = false := by
    intro i hi hlt
    rcases Nat.eq_or_lt_of_le hi with rfl | hi
    · exact hquiet
    · have hat := hrest (i - 1) (by omega) (by omega)
      rwa [show steps + 1 + (i - 1) = steps + i by omega] at hat
  cases h with
  | never hrest =>
      refine .never fun i hi hle => hshift (length + 1) (fun i hi hlt => hrest i hi (by omega)) i hi (by omega)
  | after hpos hle hrest hstop =>
      refine .after (by omega) (by omega) (hshift _ hrest) ?_
      rwa [show steps + 1 + taken = steps + (taken + 1) by omega] at hstop

/-- A run over some batches that comes to its end stops at the first request, and is told so. -/
theorem stops_of_runBatches (ht : t.stopRequested = false)
    (h : runBatches signals batches run tally t = (.ok (run', tally'), t')) :
    Stops signals run.steps batches.length (strides signals batches run t).length t'.stopRequested := by
  induction batches generalizing run tally t with
  | nil =>
      obtain rfl := (Prod.mk.inj h).2
      rw [ht]
      exact .never fun i hi hle => absurd (Nat.le_trans hi hle) (Nat.not_succ_le_zero 0)
  | cons batch batches ih =>
      rw [runBatches, Attempt.run_bind, Attempt.run_get] at h
      rw [strides]
      simp only [ht, Bool.false_eq_true, if_false] at h ⊢
      obtain ⟨⟨m, next⟩, t₁, hstep, h⟩ := Attempt.bind_eq_ok.mp h
      obtain ⟨_, t₂, hstopIf, h⟩ := Attempt.bind_eq_ok.mp h
      have hsteps : next.steps = run.steps + 1 := by rw [(step_eq_ok hstep).1]
      have ht₁ : t₁.stopRequested = false :=
        ((stepping_unnoted.keeps_step run batch).of_eq hstep).stopRequested.trans ht
      rw [hstep]
      dsimp only at hstopIf h ⊢
      rw [hstopIf]
      rw [stopIf_eq, ht₁, Bool.false_or] at hstopIf
      obtain rfl := (Prod.mk.inj hstopIf).2
      simp only [List.length_cons]
      cases hsignal : signals.afterStep next.steps with
      | false =>
          rw [hsignal] at h
          have hrest := ih rfl h
          rw [hsteps] at hrest hsignal
          exact hrest.cons hsignal
      | true =>
          rw [hsignal, runBatches_of_stopped rfl] at h
          obtain rfl := (Prod.mk.inj h).2
          rw [strides_of_stopped rfl, List.length_nil]
          rw [hsteps] at hsignal
          exact .after (Nat.le_refl 1) (by omega) (fun i hi hlt => by omega) hsignal

/-! ## Averages -/

namespace Tally

/-- The average of metrics by the lengths they come with. -/
def average (weighted : List (Metrics α × Nat)) : Metrics α :=
  let length : α := ((weighted.map (·.2)).sum : Nat)
  ⟨(weighted.map fun (m, n) => m.loss * (n : α)).foldl (· + ·) 0 / length,
    (weighted.map fun (m, n) => m.accuracy * (n : α)).foldl (· + ·) 0 / length⟩

theorem addAll_eq (weighted : List (Metrics α × Nat)) (tally : Tally α) :
    weighted.foldl (fun tally (m, n) => tally.add m n) tally =
      ⟨(weighted.map fun (m, n) => m.loss * (n : α)).foldl (· + ·) tally.loss,
        (weighted.map fun (m, n) => m.accuracy * (n : α)).foldl (· + ·) tally.accuracy,
        tally.seen + (weighted.map (·.2)).sum⟩ := by
  induction weighted generalizing tally with
  | nil => rfl
  | cons p weighted ih =>
      obtain ⟨m, n⟩ := p
      rw [List.foldl_cons, ih]
      simp only [add, List.map_cons, List.foldl_cons, List.sum_cons, Nat.add_assoc]

/-- The mean of a tally is the average of what was added to it. -/
theorem mean_addAll (weighted : List (Metrics α × Nat)) :
    (weighted.foldl (fun tally (m, n) => tally.add m n) (empty : Tally α)).mean = average weighted := by
  rw [addAll_eq, mean, average, empty]
  simp only [Nat.zero_add]

end Tally

/-- Steps over batches that are not empty have been over some samples. -/
theorem Taken.seen_pos {strides : List (Stride α)} (h : Taken run .empty strides run' tally')
    (hbatches : ∀ stride ∈ strides, 0 < stride.batch.inputs.length) (hne : strides ≠ []) : 0 < tally'.seen := by
  obtain ⟨stride, rest, rfl⟩ := List.exists_cons_of_ne_nil hne
  obtain ⟨m, next, hresult, _⟩ := h.succeeded 0 stride rfl
  have hweighted : stride.weighted? = some (m, stride.batch.inputs.length) := by rw [Stride.weighted?, hresult]; rfl
  have hpos := hbatches stride List.mem_cons_self
  rw [h.tally, Tally.addAll_eq, List.filterMap_cons, hweighted]
  simp only [List.map_cons, List.sum_cons]
  omega

/-! ## Epochs -/

/-- An event tells what became of an epoch. -/
structure Tells (event : EpochEnd α) (c : Course α) : Prop where
  epoch : event.epoch = c.epoch
  training : event.training = Tally.average (c.strides.filterMap Stride.weighted?)
  validation : c.validation.map (·.2) = event.validation.map Except.ok

theorem Predicting.keeps_check {T : Trainer α → Trainer α → Prop} (h : Predicting T) (run : TrainingRun α)
    (samples : LabelledSamples α) : Keeps T (check run samples) :=
  keeps_bind h.trans (keeps_requireModel h.refl) fun id => h.keeps_evaluateOn id samples _ _

/-- A validation that comes to its end has checked the run on the held-out samples, if there are any. -/
theorem validate_eq_ok {epoch : Nat} {validation : Option (Metrics α)}
    (h : validate signals run epoch t = (.ok validation, t')) :
    (run.validation.map fun samples => (check run samples t).1) = validation.map Except.ok ∧
      t'.stopRequested = (t.stopRequested || (run.validation.isSome && signals.inValidation epoch)) := by
  rw [validate] at h
  cases hvalidation : run.validation with
  | none =>
      simp only [hvalidation] at h
      obtain ⟨rfl, rfl⟩ := Attempt.pure_eq_ok.mp h
      simp
  | some samples =>
      simp only [hvalidation] at h
      obtain ⟨id, t₀, hmodel, h⟩ := Attempt.bind_eq_ok.mp h
      obtain ⟨m, t₁, hevaluated, h⟩ := Attempt.bind_eq_ok.mp h
      obtain ⟨_, t₂, hstopIf, h⟩ := Attempt.bind_eq_ok.mp h
      obtain ⟨rfl, rfl⟩ := Attempt.pure_eq_ok.mp h
      have hcheck : check run samples t = (.ok m, t₁) := Attempt.bind_eq_ok.mpr ⟨id, t₀, hmodel, hevaluated⟩
      have hunnoted := (stepping_unnoted.keeps_check run samples).of_eq hcheck
      rw [stopIf_eq, hunnoted.stopRequested] at hstopIf
      obtain rfl := (Prod.mk.inj hstopIf).2
      simp [hcheck]

/-- The steps of an epoch take its batches in turn. -/
theorem batches_course (signals : StopSignals) (run : TrainingRun α) (t : Trainer α) :
    (course signals run t).strides.map (·.batch) <+: (course signals run t).batches := strides_prefix _ _ _ _

/-- An epoch that comes to its end has taken its steps up to the first request to stop.  It was over no samples, or an
event tells of it. -/
theorem runEpoch_eq_ok (ht : t.stopRequested = false) {event? : Option (EpochEnd α)}
    (h : runEpoch signals run t = (.ok (event?, run'), t')) :
    ∃ tally stopped, let c := course signals run t
      Taken run .empty c.strides { run' with epoch := run.epoch } tally ∧
        Stops signals run.steps c.batches.length c.strides.length stopped ∧
        (tally.seen = 0 ∧ event? = none ∨ ∃ event, event? = some event ∧ run'.epoch = run.epoch + 1 ∧ Tells event c ∧
          event.validation.isSome = run.validation.isSome ∧
          t'.stopRequested = (stopped || (run.validation.isSome && signals.inValidation (run.epoch + 1)))) := by
  rw [runEpoch] at h
  obtain ⟨batches, t₁, hdrawn, h⟩ := Attempt.bind_eq_ok.mp h
  obtain ⟨⟨run₁, tally⟩, t₂, hbatches, h⟩ := Attempt.bind_eq_ok.mp h
  have htaken := taken_of_runBatches hbatches
  have ht₁ : t₁.stopRequested = false :=
    ((stepping_unnoted.keeps_draw run.loader.epoch).of_eq hdrawn).stopRequested.trans ht
  have hstops := stops_of_runBatches ht₁ hbatches
  rw [perform_eq_ok] at hdrawn
  have hsetup : { run₁ with epoch := run.epoch } = run₁ := by
    rw [htaken.setup]
  refine ⟨tally, t₂.stopRequested, ?_⟩
  simp only [course, hdrawn, hbatches]
  by_cases hseen : tally.seen = 0
  · simp only [hseen, if_true] at h ⊢
    obtain ⟨hresult, -⟩ := Attempt.pure_eq_ok.mp h
    obtain ⟨rfl, rfl⟩ := Prod.mk.inj hresult
    rw [hsetup]
    exact ⟨htaken, hstops, .inl ⟨trivial, rfl⟩⟩
  · simp only [hseen, if_false] at h ⊢
    obtain ⟨validation, t₃, hvalidated, h⟩ := Attempt.bind_eq_ok.mp h
    obtain ⟨_, t₄, htold, h⟩ := Attempt.bind_eq_ok.mp h
    obtain ⟨hresult, rfl⟩ := Attempt.pure_eq_ok.mp h
    obtain ⟨rfl, rfl⟩ := Prod.mk.inj hresult
    obtain ⟨hvalidation, hstop⟩ := validate_eq_ok hvalidated
    have hkept := ((stepping_unnoted.keeps_tell _).of_eq htold).stopRequested
    have hheld : run₁.validation = run.validation := by rw [htaken.setup]
    rw [hheld] at hvalidation hstop
    refine ⟨by rw [← hsetup] at htaken; exact htaken, hstops,
      .inr ⟨_, rfl, rfl, ⟨rfl, ?_, ?_⟩, ?_, hkept.trans hstop⟩⟩
    · rw [htaken.tally, Tally.mean_addAll]
    · simpa only [Option.map_map, Function.comp_def] using hvalidation
    · simpa only [Option.isSome_map] using (congrArg Option.isSome hvalidation).symm

/-! ## Beginnings and ends -/

/-- What a run has to do with, as it was asked for. -/
structure Equipped (request : TrainingRequest α) (run : TrainingRun α) (samples : LabelledSamples α)
    (given : Option (LabelledSamples α)) : Prop where
  reads : LabelledSamples.ofTensors request.inputs request.labels = .ok samples
  readsGiven : (request.validation.mapM fun (inputs, labels) => LabelledSamples.ofTensors inputs labels) = .ok given
  config : run.config = request.config
  epochs : request.config.epochCount = .ok run.epochs
  loader : Loader.ofSettings (request.config.divide samples given).1 request.config.batchSize
    request.config.shuffle.isOn false = .ok run.loader
  nonempty : 0 < (request.config.divide samples given).1.inputs.length
  validation : run.validation = (request.config.divide samples given).2

/-- A run that begins has done nothing yet. -/
structure Begun (request : TrainingRequest α) (run : TrainingRun α) (samples : LabelledSamples α)
    (given : Option (LabelledSamples α)) : Prop extends Equipped request run samples given where
  epoch : run.epoch = 0
  steps : run.steps = 0
  count : run.optimizer.count = 0

/-- A fresh optimizer has taken no step. -/
theorem count_of_openOptimizer {config : TrainingConfig} {id : Identity} {o : Optimizer α}
    (h : openOptimizer config id t = (.ok o, t')) : o.count = 0 := by
  rw [openOptimizer] at h
  obtain ⟨_, _, _, h⟩ := Attempt.bind_eq_ok.mp h
  obtain ⟨o₁, _, _, h⟩ := Attempt.bind_eq_ok.mp h
  obtain ⟨parameters, _, _, h⟩ := Attempt.bind_eq_ok.mp h
  obtain ⟨rfl, _⟩ := Attempt.pure_eq_ok.mp h
  rfl

/-- A run begins with a fresh optimizer, and without a request to stop. -/
theorem begin_eq_ok {request : TrainingRequest α} (h : begin request t = (.ok run, t')) :
    (∃ samples given, Begun request run samples given) ∧ t'.stopRequested = false := by
  rw [begin] at h
  obtain ⟨id, _, _, h⟩ := Attempt.bind_eq_ok.mp h
  obtain ⟨samples, _, hsamples, h⟩ := Attempt.bind_eq_ok.mp h
  obtain ⟨given, _, hgiven, h⟩ := Attempt.bind_eq_ok.mp h
  rcases hdivided : request.config.divide samples given with ⟨training, heldOut⟩
  rw [hdivided] at h
  dsimp only at h
  split at h
  · cases h
  · next hsome =>
    obtain ⟨optimizer, _, hopen, h⟩ := Attempt.bind_eq_ok.mp h
    obtain ⟨loader, _, hloader, h⟩ := Attempt.bind_eq_ok.mp h
    obtain ⟨epochs, t₁, hepochs, h⟩ := Attempt.bind_eq_ok.mp h
    rw [Attempt.run_bind, Attempt.run_modify] at h
    obtain ⟨rfl, rfl⟩ := Attempt.pure_eq_ok.mp h
    refine ⟨⟨samples, given, ⟨(outcome_eq_ok.mp hsamples).1, (outcome_eq_ok.mp hgiven).1, rfl,
      (outcome_eq_ok.mp hepochs).1, ?_, ?_, ?_⟩, rfl, rfl, count_of_openOptimizer hopen⟩, rfl⟩
    · rw [hdivided]
      exact (outcome_eq_ok.mp hloader).1
    · rw [hdivided]
      exact Nat.pos_of_ne_zero hsome
    · rw [hdivided]

theorem finish_eq_ok {steps : Nat} {p : Progress α} {event? : Option (EpochEnd α)}
    (h : finish steps t = (.ok (event?, p), t')) :
    event? = none ∧ p = .ended steps ∧ t'.stopRequested = t.stopRequested ∧ t'.training = false := by
  rw [finish] at h
  rw [Attempt.run_bind, Attempt.run_modify] at h
  dsimp only at h
  rw [Attempt.run_bind, Attempt.run_get] at h
  cases hstop : t.stopRequested with
  | false =>
      simp only [hstop] at h
      obtain ⟨hresult, rfl⟩ := Attempt.pure_eq_ok.mp h
      obtain ⟨rfl, rfl⟩ := Prod.mk.inj hresult
      exact ⟨rfl, rfl, rfl, rfl⟩
  | true =>
      simp only [hstop] at h
      obtain ⟨_, t₂, htold, h⟩ := Attempt.bind_eq_ok.mp h
      obtain ⟨hresult, rfl⟩ := Attempt.pure_eq_ok.mp h
      obtain ⟨rfl, rfl⟩ := Prod.mk.inj hresult
      have hunnoted := (stepping_unnoted.keeps_tell _).of_eq htold
      exact ⟨rfl, rfl, hunnoted.stopRequested, hunnoted.training⟩

/-- A run that is not at its end goes on with its next epoch, and past it if there is an event. -/
theorem advance_eq_ok {p : Progress α} {event? : Option (EpochEnd α)}
    (h : advance signals run t = (.ok (event?, p), t')) :
    (run.epochs ≤ run.epoch ∧ event? = none ∧ p = .ended run.steps ∧ t'.stopRequested = t.stopRequested ∧
      t'.training = false) ∨
    (run.epoch < run.epochs ∧ ∃ run' t₁, runEpoch signals run t = (.ok (event?, run'), t₁) ∧
      (event? = none ∧ p = .ended run'.steps ∨ event?.isSome ∧ p = .paused run' ∧ t' = t₁)) := by
  rw [advance] at h
  split at h
  · next hlt =>
    obtain ⟨⟨told?, run'⟩, t₁, hepoch, h⟩ := Attempt.bind_eq_ok.mp h
    have hran : runEpoch signals run t = (.ok (told?, run'), t₁) := by
      rw [Attempt.run_tryCatch] at hepoch
      rcases hrun : runEpoch signals run t with ⟨e | r, t₂⟩
      · simp only [hrun] at hepoch
        cases hepoch
      · rw [hrun] at hepoch
        exact hepoch
    refine .inr ⟨hlt, run', t₁, ?_⟩
    cases told? with
    | none =>
        obtain ⟨rfl, rfl, _⟩ := finish_eq_ok h
        exact ⟨hran, .inl ⟨rfl, rfl⟩⟩
    | some event =>
        obtain ⟨hresult, rfl⟩ := Attempt.pure_eq_ok.mp h
        obtain ⟨rfl, rfl⟩ := Prod.mk.inj hresult
        exact ⟨hran, .inr ⟨rfl, rfl, rfl⟩⟩
  · next hle => exact .inl ⟨Nat.le_of_not_lt hle, finish_eq_ok h⟩

/-- A run that is asked to stop goes on with nothing. -/
theorem next_of_stopped (ht : t.stopRequested = true) : next signals (.paused run) t = finish run.steps t := by
  rw [next, Attempt.run_bind, Attempt.run_get]
  simp only [ht, if_true]

theorem next_of_running (ht : t.stopRequested = false) : next signals (.paused run) t = advance signals run t := by
  rw [next, Attempt.run_bind, Attempt.run_get]
  simp only [ht, Bool.false_eq_true, if_false]

/-- A run goes on as one that begins, or as one that was paused and not asked to stop. -/
theorem opening_eq_some {p : Progress α} (h : opening t p = some (run, t')) :
    (∃ request, p = .waiting request ∧ begin request t = (.ok run, t')) ∨
      p = .paused run ∧ t' = t ∧ t.stopRequested = false := by
  cases p with
  | waiting request =>
      rw [opening] at h
      split at h
      · next run₀ t₀ hbegin =>
        obtain ⟨rfl, rfl⟩ := Prod.mk.inj (Option.some.inj h)
        exact .inl ⟨request, rfl, hbegin⟩
      · contradiction
  | paused paused =>
      rw [opening] at h
      split at h
      · contradiction
      · next hrunning =>
        obtain ⟨rfl, rfl⟩ := Prod.mk.inj (Option.some.inj h)
        exact .inr ⟨rfl, rfl, eq_false_of_ne_true hrunning⟩
  | ended steps => contradiction

/-- A run that goes on has not been asked to stop. -/
theorem running_of_opening {p : Progress α} (h : opening t p = some (run, t')) : t'.stopRequested = false := by
  obtain ⟨request, rfl, hbegin⟩ | ⟨rfl, rfl, ht⟩ := opening_eq_some h
  · exact (begin_eq_ok hbegin).2
  · exact ht

/-- A run that goes on takes its next epoch. -/
theorem next_of_opening {p : Progress α} (h : opening t p = some (run, t')) :
    next signals p t = advance signals run t' := by
  obtain ⟨request, rfl, hbegin⟩ | ⟨rfl, rfl, ht⟩ := opening_eq_some h
  · rw [next, Attempt.run_bind, hbegin]
  · exact next_of_running ht

/-! ## A small model -/

/-- A design for two numbers, and a trainer with its model. -/
def pairs : Session.Design := .ok [
  { type := "input", params := [(.text "shape", .list [.int 2])] },
  { type := "dense", params := [(.text "units", .int 2)] }]

def paired : Trainer Float where
  session := (Session.compile pairs (Session.start 7 true)).2
  compiler := { state := .compiled, model := some 0 }

/-- A run over `n` samples, one in a batch, for two epochs, that holds out a share of them. -/
def lessons (n : Nat) (heldOut : Value) : TrainingRequest Float where
  inputs := ⟨[n, 2], Tensor.fill 1 _⟩
  labels := ⟨[n, 2], Tensor.fill 1 _⟩
  config := {
    epochs := .int 2, batchSize := .int 1, learningRate := .int 1, optimizer := .sgd, loss := .meanSquaredError
    validationSplit := heldOut, maxGradNorm := .absent, shuffle := .bool false, verbose := .bool false }

end Trainer

end LayerStack
