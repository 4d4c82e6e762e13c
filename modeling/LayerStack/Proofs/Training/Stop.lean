import LayerStack.Proofs.Training.Course

/-!
# LayerStack.Proofs.Training.Stop

How long a run goes on.

A request to stop is noted and nothing else: neither a step nor an evaluation looks at it (`deaf_step`, `deaf_check`), so
one that comes in the middle of either is one that comes right after it.  The run hears it before the next batch and at
the end of the epoch, which counts however few batches it had (`stops_when_asked`).
-/

namespace LayerStack

open Attempt

variable {α : Type}

/-! ## Requests -/

/-- There is no request after any of the first steps, nor in any of the first epochs, of which some validate. -/
structure StopSignals.Quiet (signals : StopSignals) (validates : Bool) (steps epochs : Nat) : Prop where
  afterStep : ∀ k, 1 ≤ k → k ≤ steps → signals.afterStep k = false
  inValidation : validates = true → ∀ e, 1 ≤ e → e ≤ epochs → signals.inValidation e = false
  atEpochEnd : ∀ e, 1 ≤ e → e ≤ epochs → signals.atEpochEnd e = false

namespace StopSignals.Quiet

variable {signals : StopSignals} {validates : Bool} {steps epochs : Nat}

/-- Nothing has been asked before anything was done. -/
theorem start (signals : StopSignals) (validates : Bool) : signals.Quiet validates 0 0 where
  afterStep _ hk hle := absurd (Nat.le_trans hk hle) (Nat.not_succ_le_zero 0)
  inValidation _ _ he hle := absurd (Nat.le_trans he hle) (Nat.not_succ_le_zero 0)
  atEpochEnd _ he hle := absurd (Nat.le_trans he hle) (Nat.not_succ_le_zero 0)

/-- More steps without a request. -/
theorem more (h : signals.Quiet validates steps epochs) {count : Nat}
    (hmore : ∀ i, 1 ≤ i → i ≤ count → signals.afterStep (steps + i) = false) :
    signals.Quiet validates (steps + count) epochs where
  afterStep k hk hle := by
    by_cases hold : k ≤ steps
    · exact h.afterStep k hk hold
    · have hnew := hmore (k - steps) (by omega) (by omega)
      rwa [Nat.add_sub_cancel' (by omega)] at hnew
  inValidation := h.inValidation
  atEpochEnd := h.atEpochEnd

end StopSignals.Quiet

/-- Is there a request behind the steps of an epoch, while it is validated or at its end? -/
def StopSignals.closes (signals : StopSignals) (validates : Bool) (epoch : Nat) : Bool :=
  (validates && signals.inValidation epoch) || signals.atEpochEnd epoch

/-- An epoch that is not closed by a request is a quiet one. -/
theorem StopSignals.Quiet.epoch {signals : StopSignals} {validates : Bool} {steps epochs : Nat}
    (h : signals.Quiet validates steps epochs) (hopen : signals.closes validates (epochs + 1) = false) :
    signals.Quiet validates steps (epochs + 1) := by
  obtain ⟨hvalidation, hend⟩ := Bool.or_eq_false_iff.mp hopen
  refine ⟨h.afterStep, fun hvalidates e he hle => ?_, fun e he hle => ?_⟩
  · rcases Nat.eq_or_lt_of_le hle with rfl | hlt
    · simpa [hvalidates] using hvalidation
    · exact h.inValidation hvalidates e he (by omega)
  · rcases Nat.eq_or_lt_of_le hle with rfl | hlt
    · exact hend
    · exact h.atEpochEnd e he (by omega)

/-- Where it is quiet there is no request after a step. -/
theorem StopSignals.Quiet.not_afterStep {signals : StopSignals} {validates : Bool} {steps epochs : Nat}
    (h : signals.Quiet validates steps epochs) {k : Nat} (hk : 1 ≤ k) (hle : k ≤ steps) :
    ¬ signals.afterStep k = true := by
  rw [h.afterStep k hk hle]
  exact Bool.false_ne_true

/-- Neither is an epoch closed by one. -/
theorem StopSignals.Quiet.not_closes {signals : StopSignals} {validates : Bool} {steps epochs : Nat}
    (h : signals.Quiet validates steps epochs) {e : Nat} (he : 1 ≤ e) (hle : e ≤ epochs) :
    ¬ signals.closes validates e = true := by
  rw [closes, h.atEpochEnd e he hle, Bool.or_false]
  cases hvalidates : validates with
  | false => exact Bool.false_ne_true
  | true =>
      rw [h.inValidation hvalidates e he hle]
      exact Bool.false_ne_true

namespace Trainer

variable [Scalar α]

/-! ## Deafness -/

omit [Scalar α] in
/-- A request to stop makes no difference to an operation, and is still there after it. -/
def Deaf {β : Type} (x : Attempt (Trainer α) β) : Prop := Ignores (fun t => { t with stopRequested := true }) x

omit [Scalar α] in
theorem deaf_requireModel : Deaf (requireModel : Attempt (Trainer α) Identity) := by
  intro t
  rw [requireModel, Attempt.run_bind, Attempt.run_bind, Attempt.run_get, Attempt.run_get]
  cases hmodel : t.compiler.model <;> simp only [hmodel] <;> rfl

omit [Scalar α] in
theorem deaf_outcome {β : Type} (result : Except RunError β) : Deaf (outcome result : Attempt (Trainer α) β) :=
  fun _ => rfl

omit [Scalar α] in
theorem deaf_attempt {β : Type} (act : StateM (Session α) (Except RunError β)) : Deaf (attempt act) := fun _ => rfl

omit [Scalar α] in
theorem deaf_perform {β : Type} (act : StateM (Session α) β) : Deaf (perform act) := fun _ => rfl

/-- A step does not look at requests. -/
theorem deaf_step (run : TrainingRun α) (batch : LabelledSamples α) : Deaf (step run batch) := by
  rw [step]
  refine ignores_bind (deaf_attempt _) fun predictions => ?_
  refine ignores_bind (deaf_outcome _) fun m => ?_
  refine ignores_bind (deaf_outcome _) fun gradient => ?_
  refine ignores_bind (ignores_bind (deaf_attempt _) fun _ => ignores_pure _) fun _ => ?_
  refine ignores_bind (deaf_attempt _) fun gradients => ?_
  refine ignores_bind (deaf_attempt _) fun parameters => ?_
  refine ignores_bind (deaf_outcome _) fun clipped => ?_
  refine ignores_bind (deaf_attempt _) fun _ => ?_
  exact ignores_bind (deaf_outcome _) fun _ => ignores_pure _

theorem deaf_evaluateBatches (id : Identity) (loss : Loss) (batches : List (LabelledSamples α)) (tally : Tally α) :
    Deaf (evaluateBatches id loss batches tally) := by
  induction batches generalizing tally with
  | nil => exact ignores_pure tally
  | cons batch batches ih =>
      rw [evaluateBatches]
      refine ignores_bind (deaf_attempt _) fun predictions => ?_
      exact ignores_bind (deaf_outcome _) fun m => ih _

/-- Neither does the validation of an epoch. -/
theorem deaf_check (run : TrainingRun α) (samples : LabelledSamples α) : Deaf (check run samples) := by
  rw [check]
  refine ignores_bind deaf_requireModel fun id => ?_
  rw [evaluateOn]
  refine ignores_bind (deaf_outcome _) fun loader => ?_
  refine ignores_bind (deaf_perform _) fun batches => ?_
  refine ignores_bind (deaf_evaluateBatches id _ batches _) fun tally => ?_
  split
  · exact ignores_throw _
  · exact ignores_pure _

/-! ## The end of a run -/

variable {signals : StopSignals} {run run' : TrainingRun α} {t t' : Trainer α} {p : Progress α}
  {events : List (EpochEnd α)} {fuel : Nat}

/-- How a run ends: after how many epochs and steps, and whether it was stopped. -/
inductive Halts (signals : StopSignals) (validates : Bool) (batches epochs : Nat) : (ended steps : Nat) → Bool → Prop
  | never (hquiet : signals.Quiet validates (epochs * batches) epochs) :
    Halts signals validates batches epochs epochs (epochs * batches) false
  | inStep {e j : Nat} (he : e < epochs) (hj : 1 ≤ j) (hle : j ≤ batches)
    (hquiet : signals.Quiet validates (e * batches + (j - 1)) e) (hstop : signals.afterStep (e * batches + j) = true) :
    Halts signals validates batches epochs (e + 1) (e * batches + j) true
  | atEnd {e : Nat} (he : e < epochs) (hquiet : signals.Quiet validates ((e + 1) * batches) e)
    (hstop : signals.closes validates (e + 1) = true) :
    Halts signals validates batches epochs (e + 1) ((e + 1) * batches) true

section Moments

variable {validates stopped : Bool} {batches epochs e taken : Nat}

omit [Scalar α] in
/-- A request within an epoch, or behind its steps, ends the run with it. -/
theorem Stops.halts (h : Stops signals (e * batches) batches taken stopped)
    (hquiet : signals.Quiet validates (e * batches) e) (he : e < epochs)
    (hstop : (stopped || signals.closes validates (e + 1)) = true) :
    Halts signals validates batches epochs (e + 1) (e * batches + taken) true := by
  cases h with
  | never hrest =>
      have hall := hquiet.more hrest
      rw [← Nat.succ_mul] at hall ⊢
      exact .atEnd he hall hstop
  | after hpos hle hrest hafter =>
      refine .inStep he hpos hle (hquiet.more fun i hi hbelow => hrest i hi (by omega)) hafter

omit [Scalar α] in
/-- Without one the run comes to the next epoch. -/
theorem Stops.quiet (h : Stops signals (e * batches) batches taken stopped)
    (hquiet : signals.Quiet validates (e * batches) e)
    (hopen : (stopped || signals.closes validates (e + 1)) = false) :
    taken = batches ∧ signals.Quiet validates ((e + 1) * batches) (e + 1) := by
  cases h with
  | never hrest =>
      have hall := hquiet.more hrest
      rw [← Nat.succ_mul] at hall
      exact ⟨rfl, hall.epoch hopen⟩
  | after => contradiction

/-- The steps of an epoch are over before those of a later one. -/
theorem step_le {e e' j : Nat} (hlt : e < e') (hle : j ≤ batches) : e * batches + j ≤ e' * batches := by
  have hmul := Nat.mul_le_mul_right batches (Nat.succ_le_of_lt hlt)
  rw [Nat.succ_mul] at hmul
  omega

variable {ended ended' steps steps' : Nat} {stopped' : Bool}

omit [Scalar α] in
/-- The first request decides how a run ends. -/
theorem Halts.unique (h : Halts signals validates batches epochs ended steps stopped)
    (h' : Halts signals validates batches epochs ended' steps' stopped') :
    ended = ended' ∧ steps = steps' ∧ stopped = stopped' := by
  cases h with
  | never hquiet =>
      cases h' with
      | never => exact ⟨rfl, rfl, rfl⟩
      | inStep he hj hle _ hstop => exact absurd hstop (hquiet.not_afterStep (by omega) (step_le he hle))
      | atEnd he _ hstop => exact absurd hstop (hquiet.not_closes (by omega) he)
  | @inStep e j he hj hle hquiet hstop =>
      cases h' with
      | never hquiet' => exact absurd hstop (hquiet'.not_afterStep (by omega) (step_le he hle))
      | @inStep e' j' he' hj' hle' hquiet' hstop' =>
          rcases Nat.lt_trichotomy e e' with hlt | rfl | hlt
          · exact absurd hstop (hquiet'.not_afterStep (by omega) (Nat.le_add_right_of_le (step_le hlt hle)))
          · rcases Nat.lt_trichotomy j j' with hlt | rfl | hlt
            · exact absurd hstop (hquiet'.not_afterStep (by omega) (by omega))
            · exact ⟨rfl, rfl, rfl⟩
            · exact absurd hstop' (hquiet.not_afterStep (by omega) (by omega))
          · exact absurd hstop' (hquiet.not_afterStep (by omega) (Nat.le_add_right_of_le (step_le hlt hle')))
      | @atEnd e' he' hquiet' hstop' =>
          rcases Nat.lt_or_ge e' e with hlt | hge
          · exact absurd hstop' (hquiet.not_closes (by omega) hlt)
          · exact absurd hstop (hquiet'.not_afterStep (by omega) (step_le (Nat.lt_succ_of_le hge) hle))
  | @atEnd e he hquiet hstop =>
      cases h' with
      | never hquiet' => exact absurd hstop (hquiet'.not_closes (by omega) he)
      | @inStep e' j' he' hj' hle' hquiet' hstop' =>
          rcases Nat.lt_or_ge e e' with hlt | hge
          · exact absurd hstop (hquiet'.not_closes (by omega) hlt)
          · exact absurd hstop' (hquiet.not_afterStep (by omega) (step_le (Nat.lt_succ_of_le hge) hle'))
      | @atEnd e' he' hquiet' hstop' =>
          rcases Nat.lt_trichotomy e e' with hlt | rfl | hlt
          · exact absurd hstop (hquiet'.not_closes (by omega) hlt)
          · exact ⟨rfl, rfl, rfl⟩
          · exact absurd hstop' (hquiet.not_closes (by omega) hlt)

end Moments

/-- What a run comes to from some epoch on, with its courses and its events. -/
structure Ended (signals : StopSignals) (batches : Nat) (run : TrainingRun α) (courses : List (Course α))
    (events : List (EpochEnd α)) (steps : Nat) (t : Trainer α) : Prop where
  halts : Halts signals run.validation.isSome batches run.epochs (run.epoch + events.length) steps t.stopRequested
  training : t.training = false
  epochs : events.map (·.epoch) = List.range' (run.epoch + 1) events.length
  told : List.Forall₂ Tells events courses
  steps : steps = run.steps + (courses.flatMap (·.strides)).length
  succeeded : ∀ k stride, (courses.flatMap (·.strides))[k]? = some stride →
    ∃ m next, stride.result = .ok (m, next) ∧ next.optimizer.count = run.optimizer.count + (k + 1)

/-- A run that is at its end. -/
theorem ended_nil {batches : Nat} (ht : t.training = false)
    (hhalts : Halts signals run.validation.isSome batches run.epochs run.epoch run.steps t.stopRequested) :
    Ended signals batches run [] [] run.steps t where
  halts := hhalts
  training := ht
  epochs := rfl
  told := .nil
  steps := rfl
  succeeded k stride hstride := by
    contradiction

/-- One more epoch goes before the others. -/
theorem Ended.cons {batches steps : Nat} {tally : Tally α} {event : EpochEnd α} {c : Course α} {rest : List (Course α)}
    (h : Ended signals batches run' rest events steps t)
    (htaken : Taken run .empty c.strides { run' with epoch := run.epoch } tally) (hepoch : run'.epoch = run.epoch + 1)
    (hc : c.epoch = run.epoch + 1) (htells : Tells event c) :
    Ended signals batches run (c :: rest) (event :: events) steps t where
  halts := by
    have hvalidation : run'.validation = run.validation := (congrArg (·.validation) htaken.setup :)
    have hepochs : run'.epochs = run.epochs := (congrArg (·.epochs) htaken.setup :)
    have hhalts := h.halts
    rw [hvalidation, hepochs, hepoch] at hhalts
    rwa [List.length_cons, Nat.add_comm events.length, ← Nat.add_assoc]
  training := h.training
  epochs := by
    rw [List.map_cons, List.length_cons, List.range'_succ, htells.epoch, hc, h.epochs, hepoch]
  told := .cons htells h.told
  steps := by
    have hsteps : run'.steps = run.steps + c.strides.length := congrArg TrainingRun.steps htaken.setup
    rw [h.steps, hsteps, List.flatMap_cons, List.length_append, Nat.add_assoc]
  succeeded := by
    intro k stride hstride
    rw [List.flatMap_cons, List.getElem?_append] at hstride
    split at hstride
    · exact htaken.succeeded k stride hstride
    · next hbeyond =>
      obtain ⟨m, next, hresult, hcount⟩ := h.succeeded _ stride hstride
      refine ⟨m, next, hresult, ?_⟩
      have htotal : run'.optimizer.count = run.optimizer.count + c.strides.length := htaken.count
      omega

/-! ### One event after the other -/

/-- The events of a run are those from the next one on. -/
theorem drive_eq_ok {p₀ : Progress α} (h : drive signals (fuel + 1) p₀ t = (.ok (events, p), t')) :
    (events = [] ∧ next signals p₀ t = (.ok (none, p), t')) ∨
      ∃ event rest p₁ t₁, events = event :: rest ∧ next signals p₀ t = (.ok (some event, p₁), t₁) ∧
        drive signals fuel p₁ (stopIf (signals.atEpochEnd event.epoch) t₁).2 = (.ok (rest, p), t') := by
  rw [drive] at h
  obtain ⟨⟨event?, p₁⟩, t₁, hnext, h⟩ := Attempt.bind_eq_ok.mp h
  cases event? with
  | none =>
      obtain ⟨hresult, rfl⟩ := Attempt.pure_eq_ok.mp h
      obtain ⟨rfl, rfl⟩ := Prod.mk.inj hresult
      exact .inl ⟨rfl, hnext⟩
  | some event =>
      obtain ⟨_, t₂, hstopIf, h⟩ := Attempt.bind_eq_ok.mp h
      obtain ⟨⟨rest, p₂⟩, t₃, hrest, h⟩ := Attempt.bind_eq_ok.mp h
      obtain ⟨hresult, rfl⟩ := Attempt.pure_eq_ok.mp h
      obtain ⟨rfl, rfl⟩ := Prod.mk.inj hresult
      rw [show t₂ = (stopIf (signals.atEpochEnd event.epoch) t₁).2 by rw [hstopIf]] at hrest
      exact .inr ⟨event, rest, p₁, t₁, rfl, hnext, hrest⟩

theorem courses_of_stopped (ht : t.stopRequested = true) : courses signals fuel (.paused run) t = [] := by
  cases fuel with
  | zero => rfl
  | succ fuel =>
      rw [courses, opening, if_pos ht, next_of_stopped ht]
      split
      · next event p' t' hfinish =>
        obtain ⟨hnone, _⟩ := finish_eq_ok hfinish
        contradiction
      · rfl

theorem drive_of_stopped (ht : t.stopRequested = true)
    (h : drive signals (fuel + 1) (.paused run) t = (.ok (events, p), t')) :
    events = [] ∧ p = .ended run.steps ∧ t'.stopRequested = true ∧ t'.training = false := by
  rcases drive_eq_ok h with ⟨hevents, hnext⟩ | ⟨event, rest, p₁, t₁, hevents, hnext, hrest⟩
  · rw [next_of_stopped ht] at hnext
    obtain ⟨_, hp, hstop, htraining⟩ := finish_eq_ok hnext
    exact ⟨hevents, hp, hstop.trans ht, htraining⟩
  · rw [next_of_stopped ht] at hnext
    obtain ⟨hnone, _⟩ := finish_eq_ok hnext
    contradiction

/-! ### Whole runs -/

omit [Scalar α] in
/-- The batches there are in an epoch. -/
def batchCount (run : TrainingRun α) : Nat := (run.loader.length + run.loader.batchSize - 1) / run.loader.batchSize

omit [Scalar α] in
theorem batchCount_pos (hsome : 0 < run.loader.length) : 0 < batchCount run :=
  Nat.div_pos (by have := run.loader.batchSize_pos; omega) run.loader.batchSize_pos

omit [Scalar α] in
/-- There is a step where there is a batch. -/
theorem Stops.pos {steps length taken : Nat} {stopped : Bool} (h : Stops signals steps length taken stopped)
    (hlength : 0 < length) : 0 < taken := by
  cases h with
  | never => exact hlength
  | after hpos => exact hpos

/-- An epoch of a run over all of some samples ends with an event, and stops at the first request. -/
theorem ran_of_runEpoch (hall : run.loader.dropLast = false) (hsome : 0 < run.loader.length)
    (ht : t.stopRequested = false) {event? : Option (EpochEnd α)}
    (h : runEpoch signals run t = (.ok (event?, run'), t')) :
    ∃ event tally stopped, let c := course signals run t
      event? = some event ∧ run'.epoch = run.epoch + 1 ∧ Tells event c ∧
        Taken run .empty c.strides { run' with epoch := run.epoch } tally ∧
        Stops signals run.steps (batchCount run) c.strides.length stopped ∧
        t'.stopRequested = (stopped || (run.validation.isSome && signals.inValidation (run.epoch + 1))) := by
  obtain ⟨tally, stopped, htaken, hstops, hseen⟩ := runEpoch_eq_ok ht h
  have hbatches : (course signals run t).batches = (run.loader.epoch t.session.stream).1 := rfl
  have hlength : (course signals run t).batches.length = batchCount run := by
    rw [hbatches, Loader.length_epoch hall]
    rfl
  rw [hlength] at hstops
  have hpos : 0 < tally.seen := by
    refine htaken.seen_pos (fun stride hstride => ?_) (List.ne_nil_of_length_pos (hstops.pos (batchCount_pos hsome)))
    have hbatch := (batches_course signals run t).subset (List.mem_map_of_mem hstride)
    rw [hbatches] at hbatch
    exact Loader.length_pos_of_mem_epoch hall hbatch
  rcases hseen with ⟨hseen, _⟩ | ⟨event, hevent, hepoch, htells, _, hstop⟩
  · omega
  · exact ⟨event, tally, stopped, hevent, hepoch, htells, htaken, hstops, hstop⟩

/-- From an epoch on that was come to without a request, a run goes on to the first request or to its end. -/
theorem ended_of_drive (h : drive signals fuel (.paused run) t = (.ok (events, p), t'))
    (hall : run.loader.dropLast = false) (hsome : 0 < run.loader.length) (ht : t.stopRequested = false)
    (hle : run.epoch ≤ run.epochs) (hfuel : run.epochs < run.epoch + fuel)
    (hsteps : run.steps = run.epoch * batchCount run)
    (hquiet : signals.Quiet run.validation.isSome run.steps run.epoch) :
    Ended signals (batchCount run) run (courses signals fuel (.paused run) t) events p.steps t' := by
  induction fuel generalizing run t events with
  | zero => omega
  | succ fuel ih =>
      have hopening : opening t (.paused run) = some (run, t) := by
        rw [opening, ht]
        rfl
      rcases drive_eq_ok h with ⟨rfl, hnext⟩ | ⟨event, rest, p₁, t₁, rfl, hnext, hrest⟩
      · -- no event: the run is at its end
        rw [next_of_running ht] at hnext
        rcases advance_eq_ok hnext with ⟨hend, _, rfl, hstop, htraining⟩ | ⟨_, run', t₁, hran, _⟩
        · obtain hepochs : run.epoch = run.epochs := Nat.le_antisymm hle hend
          have hcourses : courses signals (fuel + 1) (.paused run) t = [] := by
            rw [courses, hopening, next_of_running ht, hnext]
            simp [hepochs]
          rw [hcourses]
          refine ended_nil htraining ?_
          rw [hsteps, hepochs, hstop, ht]
          rw [hsteps, hepochs] at hquiet
          exact .never hquiet
        · obtain ⟨event, _, _, hsomeEvent, _⟩ := ran_of_runEpoch hall hsome ht hran
          contradiction
      · rw [next_of_running ht] at hnext
        rcases advance_eq_ok hnext with ⟨_, hnone, _⟩ | ⟨hlt, run', t₂, hran, ⟨hnone, _⟩ | ⟨_, rfl, rfl⟩⟩
        · contradiction
        · contradiction
        · obtain ⟨event', tally, stopped, hevent, hepoch, htells, htaken, hstops, hstop⟩ :=
            ran_of_runEpoch hall hsome ht hran
          obtain rfl : event = event' := Option.some.inj hevent
          have hcourses : courses signals (fuel + 1) (.paused run) t = course signals run t ::
              courses signals fuel (.paused run') (stopIf (signals.atEpochEnd event.epoch) t₁).2 := by
            rw [courses, hopening, next_of_running ht, hnext]
            simp [Option.filter, hlt]
          rw [hcourses]
          refine Ended.cons ?_ htaken hepoch rfl htells
          have hclosed : (stopIf (signals.atEpochEnd event.epoch) t₁).2.stopRequested =
              (stopped || signals.closes run.validation.isSome (run.epoch + 1)) := by
            have hcourse : event.epoch = run.epoch + 1 := htells.epoch
            rw [stopIf_eq, hcourse, StopSignals.closes, ← Bool.or_assoc, ← hstop]
          have hrun : run' = { run with
              optimizer := run'.optimizer, steps := run.steps + (course signals run t).strides.length
              epoch := run.epoch + 1 } := by
            calc run' = { ({ run' with epoch := run.epoch } : TrainingRun α) with epoch := run.epoch + 1 } := by
                  rw [← hepoch]
              _ = _ := by rw [htaken.setup]
          generalize course signals run t = c at *
          generalize run'.optimizer = o at hrun
          generalize (stopIf (signals.atEpochEnd event.epoch) t₁).2 = t₂ at *
          subst hrun
          rw [hsteps] at hstops hquiet
          cases hstopped : t₂.stopRequested with
          | true =>
              obtain ⟨fuel, rfl⟩ : ∃ n, fuel = n + 1 := ⟨fuel - 1, by omega⟩
              obtain ⟨rfl, rfl, hstop', htraining⟩ := drive_of_stopped hstopped hrest
              rw [courses_of_stopped hstopped]
              refine ended_nil htraining ?_
              rw [hstop']
              dsimp only
              rw [hsteps]
              exact hstops.halts hquiet hlt (hclosed.symm.trans hstopped)
          | false =>
              obtain ⟨htaken', hquiet'⟩ := hstops.quiet hquiet (hclosed.symm.trans hstopped)
              refine ih hrest hall hsome hstopped hlt (by dsimp only; omega) ?_ ?_
              · show run.steps + c.strides.length = (run.epoch + 1) * batchCount run
                rw [hsteps, htaken', Nat.succ_mul]
              · show signals.Quiet run.validation.isSome (run.steps + c.strides.length) (run.epoch + 1)
                rwa [hsteps, htaken', ← Nat.succ_mul]

/-! ### What is asked for -/

omit [Scalar α] in
/-- What a run is about: the samples to train on, how many of them make a batch, the epochs, and whether these are
validated. -/
structure Measures (request : TrainingRequest α) (samples batchSize epochs : Nat) (validates : Bool) : Prop where
  samples : ∃ all given, LabelledSamples.ofTensors request.inputs request.labels = .ok all ∧
    (request.validation.mapM fun (inputs, labels) => LabelledSamples.ofTensors inputs labels) = .ok given ∧
    (request.config.divide all given).1.inputs.length = samples ∧ (request.config.divide all given).2.isSome = validates
  batchSize : request.config.batchSize.quantity? = some (.int batchSize)
  epochs : request.config.epochCount = .ok epochs

omit [Scalar α] in
theorem Measures.unique {request : TrainingRequest α} {n n' b b' E E' : Nat} {validates validates' : Bool}
    (h : Measures request n b E validates) (h' : Measures request n' b' E' validates') :
    n = n' ∧ b = b' ∧ E = E' ∧ validates = validates' := by
  obtain ⟨⟨all, given, hall, hgiven, hsamples, hvalidates⟩, hsize, hepochs⟩ := h
  obtain ⟨⟨all', given', hall', hgiven', hsamples', hvalidates'⟩, hsize', hepochs'⟩ := h'
  obtain rfl := Except.ok.inj (hall.symm.trans hall')
  obtain rfl := Except.ok.inj (hgiven.symm.trans hgiven')
  have hbatch := Number.int.inj (Option.some.inj (hsize.symm.trans hsize'))
  exact ⟨hsamples.symm.trans hsamples', by omega, Except.ok.inj (hepochs.symm.trans hepochs'),
    hvalidates.symm.trans hvalidates'⟩

omit [Scalar α] in
/-- A run was over after some epochs and steps, and was stopped or not. -/
structure EndedAfter (history : TrainingHistory α) (epochs steps : Nat) (stopped : Bool) : Prop where
  epochs : history.events.map (·.epoch) = List.range' 1 epochs
  steps : history.steps = steps
  stopped : history.stoppedEarly = stopped

/-- A run that begins goes on as one that was paused before its first epoch. -/
theorem drive_of_begin {request : TrainingRequest α} (h : begin request t = (.ok run, t'))
    (ht' : t'.stopRequested = false) :
    drive signals (fuel + 1) (.waiting request) t = drive signals (fuel + 1) (.paused run) t' ∧
      courses signals (fuel + 1) (.waiting request) t = courses signals (fuel + 1) (.paused run) t' := by
  have hwaiting : opening t (.waiting request) = some (run, t') := by simp only [opening, h]
  have hpaused : opening t' (.paused run) = some (run, t') := by simp only [opening, ht', Bool.false_eq_true, if_false]
  have hnext : next signals (.waiting request) t = next signals (.paused run) t' :=
    (next_of_opening hwaiting).trans (next_of_opening hpaused).symm
  constructor
  · rw [drive, drive, Attempt.run_bind, Attempt.run_bind, hnext]
  · rw [courses, courses, hwaiting, hpaused, hnext]

/-- A run that comes to its end has begun. -/
theorem begin_of_drive {request : TrainingRequest α}
    (h : drive signals (fuel + 1) (.waiting request) t = (.ok (events, p), t')) :
    ∃ run t₀, begin request t = (.ok run, t₀) := by
  rw [drive] at h
  obtain ⟨_, _, hnext, _⟩ := Attempt.bind_eq_ok.mp h
  obtain ⟨run, t₀, hbegin, _⟩ := Attempt.bind_eq_ok.mp hnext
  exact ⟨run, t₀, hbegin⟩

/-- A run stops when it is asked to, and not before.  Let a run over `n` samples in batches of `b` come to its end, with
`B` batches in each of `E` epochs.  Its events tell of its epochs, each with the average over the batches of the epoch
that were gone through, and every step is one of the optimizer.  If it is never asked to stop, there are `E * B` steps and
events for all epochs.  If it is asked first in step `j` of epoch `e + 1`, there are `e * B + j` steps, and if it is asked
first while that epoch is validated or at its end, there are `(e + 1) * B` steps; either way there are events for the
epochs up to that one, and the run is said to be stopped early.  It does not matter when in a step or a validation the
request comes. -/
theorem stops_when_asked {request : TrainingRequest α} {history : TrainingHistory α}
    (h : fit signals request t = (.ok history, t')) :
    ∃ n b E validates, Measures request n b E validates ∧ 0 < n ∧ 0 < b ∧
      let B := (n + b - 1) / b
      let followed := courses signals (E + 1) (.waiting request) t
      List.Forall₂ Tells history.events followed ∧
      history.steps = (followed.flatMap (·.strides)).length ∧
      (∀ k stride, (followed.flatMap (·.strides))[k]? = some stride →
        ∃ m run, stride.result = .ok (m, run) ∧ run.optimizer.count = k + 1) ∧
      t'.training = false ∧
      (signals.Quiet validates (E * B) E → EndedAfter history E (E * B) false) ∧
      (∀ e j, e < E → 1 ≤ j → j ≤ B → signals.Quiet validates (e * B + (j - 1)) e →
        signals.afterStep (e * B + j) = true → EndedAfter history (e + 1) (e * B + j) true) ∧
      (∀ e, e < E → signals.Quiet validates ((e + 1) * B) e → signals.closes validates (e + 1) = true →
        EndedAfter history (e + 1) ((e + 1) * B) true) ∧
      (∀ run batch, Deaf (step run batch : Attempt (Trainer α) _)) ∧
      ∀ run samples, Deaf (check run samples : Attempt (Trainer α) _) := by
  rw [fit] at h
  obtain ⟨⟨events, p⟩, t₁, hdrive, h⟩ := Attempt.bind_eq_ok.mp h
  dsimp only at h
  rw [Attempt.run_bind, Attempt.run_get] at h
  obtain ⟨rfl, rfl⟩ := Attempt.pure_eq_ok.mp h
  obtain ⟨run, t₀, hbegin⟩ := begin_of_drive hdrive
  obtain ⟨⟨samples, given, hbegun⟩, ht₀⟩ := begin_eq_ok hbegin
  obtain ⟨_, hsize, hsamples, _, hall⟩ := Loader.ofSettings_eq_ok hbegun.loader
  have hsome : 0 < run.loader.length := by
    rw [Loader.length, hsamples]
    exact hbegun.nonempty
  have hmeasures : Measures request run.loader.length run.loader.batchSize run.epochs run.validation.isSome :=
    ⟨⟨samples, given, hbegun.reads, hbegun.readsGiven, by rw [Loader.length, hsamples], by rw [hbegun.validation]⟩,
      hsize, hbegun.epochs⟩
  have hfuel : request.config.epochCount.toOption.getD 0 = run.epochs := by
    rw [hbegun.epochs]
    rfl
  rw [hfuel] at hdrive
  obtain ⟨hsame, hcourses⟩ := drive_of_begin hbegin ht₀
  have hended := ended_of_drive (hsame.symm.trans hdrive) hall hsome ht₀ (by rw [hbegun.epoch]; omega)
    (by rw [hbegun.epoch]; exact Nat.lt_of_lt_of_le (Nat.lt_succ_self _) (Nat.le_add_left _ 0))
    (by rw [hbegun.steps, hbegun.epoch, Nat.zero_mul])
    (by rw [hbegun.steps, hbegun.epoch]; exact .start _ _)
  have hhalts := hended.halts
  have hends {ended steps : Nat} {stopped : Bool} (hasked : Halts signals run.validation.isSome (batchCount run)
      run.epochs ended steps stopped) :
      EndedAfter { events, stoppedEarly := t₁.stopRequested, steps := p.steps } ended steps stopped := by
    rw [hbegun.epoch, Nat.zero_add] at hhalts
    obtain ⟨hended', hsteps, hstopped⟩ := hhalts.unique hasked
    have hepochs := hended.epochs
    rw [hbegun.epoch, hended'] at hepochs
    exact ⟨hepochs, hsteps, hstopped⟩
  refine ⟨run.loader.length, run.loader.batchSize, run.epochs, run.validation.isSome, hmeasures, hsome,
    run.loader.batchSize_pos, ?_, ?_, ?_, hended.training, fun hquiet => hends (.never hquiet),
    fun e j he hj hle hquiet hstop => hends (.inStep he hj hle hquiet hstop),
    fun e he hquiet hstop => hends (.atEnd he hquiet hstop), deaf_step, deaf_check⟩
  · rw [hcourses]
    exact hended.told
  · rw [hcourses]
    exact hended.steps.trans (by rw [hbegun.steps, Nat.zero_add])
  · rw [hcourses]
    intro k stride hstride
    obtain ⟨m, next, hresult, hcount⟩ := hended.succeeded k stride hstride
    exact ⟨m, next, hresult, by rw [hcount, hbegun.count, Nat.zero_add]⟩

/-- Two samples, one in a batch, for two epochs. -/
def twice : TrainingRequest Float := lessons 2 (.int 0)

/-- A run that is asked to stop in the first step of its second epoch has three steps and two events. -/
theorem stops_when_asked_third :
    let signals : StopSignals := { afterStep := (· == 3) }
    ∃ history t', fit signals twice paired = (.ok history, t') ∧ Measures twice 2 1 2 false ∧
      signals.Quiet false 2 1 ∧ signals.afterStep 3 = true ∧ EndedAfter history 2 3 true ∧ t'.training = false := by
  intro signals
  have hok : (fit signals twice paired).1.isOk = true := by decide +kernel
  rcases hfit : fit signals twice paired with ⟨e | history, t'⟩
  · rw [hfit] at hok
    contradiction
  obtain ⟨n, b, E, validates, hmeasures, _, _, _, _, _, htraining, _, hinStep, _⟩ := stops_when_asked hfit
  have htwice : Measures twice 2 1 2 false := ⟨⟨_, _, rfl, rfl, rfl, rfl⟩, rfl, rfl⟩
  obtain ⟨rfl, rfl, rfl, rfl⟩ := hmeasures.unique htwice
  have hquiet : signals.Quiet false 2 1 := ⟨fun k _ hle => beq_false_of_ne (by omega), nofun, fun _ _ _ => rfl⟩
  exact ⟨history, t', rfl, htwice, hquiet, rfl, hinStep 1 1 (by decide) (by decide) (by decide) hquiet rfl, htraining⟩

end Trainer

end LayerStack
