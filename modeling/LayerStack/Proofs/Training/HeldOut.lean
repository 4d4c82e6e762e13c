import LayerStack.Proofs.Training.Course

/-!
# LayerStack.Proofs.Training.HeldOut

What is held out of a run.

A run divides its samples once, when it begins, and goes on with the same two parts whatever else is done to its trainer
between two epochs (`Reaches.equipped`).  Steps take the samples before the split, each with its own label, and epochs are
validated on those from the split on (`trained_apart`).  A split before the first sample holds out nothing, and all
samples are trained on (`trained_on_lone`).
-/

namespace LayerStack

open Attempt

variable {α : Type}

/-! ## Dividing samples -/

/-- Some samples are divided behind the first `kept` of them, and those from there on are held out, if there are any. -/
structure Division (samples : LabelledSamples α) (kept : Nat) (training : LabelledSamples α)
    (heldOut : Option (LabelledSamples α)) : Prop where
  length : training.inputs.length = min kept samples.inputs.length
  labels : training.labels.length ≤ samples.labels.length
  pick : ∀ indices : List Nat, (∀ i ∈ indices, i < kept) → training.pick indices = samples.pick indices
  heldOut : heldOut = if kept < samples.inputs.length then some (samples.drop kept) else none

theorem division_of_lt {samples : LabelledSamples α} {kept : Nat} (h : kept < samples.inputs.length) :
    Division samples kept (samples.take kept) (some (samples.drop kept)) where
  length := samples.inputs.length_take kept
  labels := by
    show (samples.labels.take kept).length ≤ _
    rw [Samples.length_take]
    exact Nat.min_le_right _ _
  pick _ hindices := samples.pick_take hindices
  heldOut := (if_pos h).symm

theorem division_of_le {samples : LabelledSamples α} {kept : Nat} (h : samples.inputs.length ≤ kept) :
    Division samples kept samples none where
  length := (Nat.min_eq_right h).symm
  labels := Nat.le_refl _
  pick _ _ := rfl
  heldOut := (if_neg (Nat.not_lt.mpr h)).symm

/-- Samples are divided where a ratio of them ends.  If that is before the first one, all are kept. -/
theorem division_of_split {config : TrainingConfig} {samples : LabelledSamples α} {v : Number} {s : Int}
    (hsplit : config.validationSplit.quantity? = some v) (hpos : Number.lt (.int 0) v = true)
    (hs : (v.complement.share samples.inputs.length).truncate? = some s) :
    Division samples (if 0 < s then s.toNat else samples.inputs.length) (config.divide samples none).1
      (config.divide samples none).2 := by
  have hafter : config.heldOutAfter samples.inputs.length =
      if 0 < s ∧ s < samples.inputs.length then some s.toNat else none := by
    simp only [TrainingConfig.heldOutAfter, hsplit, Option.bind_eq_bind, Option.bind_some, hpos, if_true, hs]
  rw [TrainingConfig.divide, hafter]
  by_cases hfirst : 0 < s
  · rw [if_pos hfirst]
    by_cases hlast : s < samples.inputs.length
    · rw [if_pos ⟨hfirst, hlast⟩]
      exact division_of_lt (by omega)
    · rw [if_neg (fun h => hlast h.2)]
      exact division_of_le (by omega)
  · rw [if_neg hfirst, if_neg (fun h => hfirst h.1)]
    exact division_of_le (Nat.le_refl _)

namespace Trainer

variable [Scalar α]

/-! ## Evaluating samples -/

/-- Metrics are the mean over the samples at some indices, taken in turn in batches of one size. -/
def MeanOver (loss : Loss) (samples : LabelledSamples α) (indices : List Nat) (m : Metrics α) : Prop :=
  ∃ id size tally, ∃ t t' : Trainer α, 0 < size ∧
    evaluateBatches id loss ((chunks size indices).map samples.pick) .empty t = (.ok tally, t') ∧ m = tally.mean

variable {samples : LabelledSamples α} {loss : Loss} {m : Metrics α} {kept : Nat} {t t' t₀ : Trainer α}
  {signals : StopSignals} {request : TrainingRequest α} {run run' : TrainingRun α} {p : Progress α}
  {given : Option (LabelledSamples α)}

/-- An evaluation goes through all samples in order. -/
theorem meanOver_of_evaluateOn {id : Identity} {batchSize : Value}
    (h : evaluateOn id samples loss batchSize t = (.ok m, t')) :
    MeanOver loss samples (List.range samples.inputs.length) m := by
  rw [evaluateOn] at h
  obtain ⟨loader, _, hloader, h⟩ := Attempt.bind_eq_ok.mp h
  obtain ⟨batches, t₁, hdrawn, h⟩ := Attempt.bind_eq_ok.mp h
  obtain ⟨tally, t₂, hbatches, h⟩ := Attempt.bind_eq_ok.mp h
  obtain ⟨_, _, hsamples, hshuffle, hall⟩ := Loader.ofSettings_eq_ok (outcome_eq_ok.mp hloader).1
  have horder (s : Stream) : (loader.order s).1 = List.range samples.inputs.length := by
    rw [Loader.order, hshuffle, Loader.length, hsamples]
    rfl
  have hbatchesEq : batches = (chunks loader.batchSize (List.range samples.inputs.length)).map samples.pick := by
    rw [perform_eq_ok] at hdrawn
    rw [← (Prod.mk.inj hdrawn).1]
    exact (Loader.epoch_eq hall _).trans (by rw [horder, hsamples])
  split at h
  · cases h
  · obtain ⟨rfl, _⟩ := Attempt.pure_eq_ok.mp h
    rw [hbatchesEq] at hbatches
    exact ⟨id, loader.batchSize, tally, t₁, t₂, loader.batchSize_pos, hbatches, rfl⟩

/-- What is said of the samples behind the first ones is said of all samples at the indices from there on. -/
theorem MeanOver.of_drop {indices : List Nat} (h : MeanOver loss (samples.drop kept) indices m) :
    MeanOver loss samples (indices.map (kept + ·)) m := by
  obtain ⟨id, size, tally, t, t', hsize, hbatches, hm⟩ := h
  refine ⟨id, size, tally, t, t', hsize, ?_, hm⟩
  rw [chunks_map, List.map_map]
  rwa [funext (samples.pick_drop kept)] at hbatches

/-! ## Epochs of a divided run -/

/-- An epoch trains on the first `kept` of some samples and is validated on the others. -/
structure Apart (loss : Loss) (samples : LabelledSamples α) (kept : Nat) (c : Course α) : Prop where
  /-- A step takes the first samples only, each with its own label. -/
  steps : ∀ stride ∈ c.strides, ∃ indices : List Nat, stride.batch = samples.pick indices ∧
    ∀ i ∈ indices, i < kept ∧ i < samples.inputs.length ∧ i < samples.labels.length
  /-- The batches of the epoch go through each of them once. -/
  batches : ∃ pieces : List (List Nat), c.batches = pieces.map samples.pick ∧
    pieces.flatten.Perm (List.range (min kept samples.inputs.length))
  /-- The steps take the batches in turn; those of a complete epoch take all. -/
  taken : c.strides.map (·.batch) <+: c.batches
  complete : c.strides.length = c.batches.length → c.strides.map (·.batch) = c.batches
  /-- The others are what the epoch is validated on, each of them once. -/
  validated : ∀ held result, c.validation = some (held, result) →
    kept < samples.inputs.length ∧ held = samples.drop kept ∧ ∀ m, result = .ok m →
      MeanOver loss samples (List.range' kept (samples.inputs.length - kept)) m

/-- What an epoch is validated on is what its run holds out. -/
theorem validation_of_course {held : LabelledSamples α} {result : Except Failure (Metrics α)}
    (h : (course signals run t).validation = some (held, result)) :
    run.validation = some held ∧ ∃ run' t', run'.config = run.config ∧ result = (check run' held t').1 := by
  rcases hdrawn : inSession (Session.draw run.loader.epoch) t with ⟨batches, t₁⟩
  rcases hbatches : runBatches signals batches run .empty t₁ with ⟨e | ⟨run', tally⟩, t₂⟩
  · simp only [course, hdrawn, hbatches] at h
    contradiction
  · simp only [course, hdrawn, hbatches] at h
    split at h
    · contradiction
    · obtain ⟨samples, hvalidation, heq⟩ := Option.map_eq_some_iff.mp h
      obtain ⟨rfl, rfl⟩ := Prod.mk.inj heq
      refine ⟨hvalidation, run', t₂, ?_, rfl⟩
      rw [(taken_of_runBatches hbatches).setup]

/-- An epoch of a run keeps to the division of the samples. -/
theorem Equipped.apart (h : Equipped request run samples given)
    (hdivision : Division samples kept (request.config.divide samples given).1 (request.config.divide samples given).2)
    (signals : StopSignals) (t : Trainer α) : Apart request.config.loss samples kept (course signals run t) := by
  obtain ⟨hpaired, _, hsamples, _, hall⟩ := Loader.ofSettings_eq_ok h.loader
  generalize (request.config.divide samples given).1 = training at hdivision hpaired hsamples
  have hlength : run.loader.length = min kept samples.inputs.length := by
    rw [Loader.length, hsamples, hdivision.length]
  have hlabels : min kept samples.inputs.length ≤ samples.labels.length := by
    rw [← hdivision.length, beq_iff_eq.mp hpaired]
    exact hdivision.labels
  let order := (run.loader.order t.session.stream).1
  have hperm : order.Perm (List.range (min kept samples.inputs.length)) := hlength ▸ run.loader.perm_order _
  have hbelow {piece : List Nat} (hpiece : piece ∈ chunks run.loader.batchSize order) :
      ∀ i ∈ piece, i < min kept samples.inputs.length := by
    intro i hi
    have horder : i ∈ order := by
      rw [← flatten_chunks run.loader.batchSize order]
      exact List.mem_flatten.mpr ⟨piece, hpiece, hi⟩
    exact List.mem_range.mp (hperm.mem_iff.mp horder)
  have hbatches : (course signals run t).batches = (chunks run.loader.batchSize order).map samples.pick := by
    refine (Loader.epoch_eq hall _).trans (List.map_congr_left fun piece hpiece => ?_)
    rw [hsamples]
    exact hdivision.pick piece fun i hi => Nat.lt_of_lt_of_le (hbelow hpiece i hi) (Nat.min_le_left _ _)
  have htaken := batches_course signals run t
  refine ⟨fun stride hstride => ?_, ⟨_, hbatches, ?_⟩, htaken, fun hcomplete => ?_, fun held result hvalidation => ?_⟩
  · have hbatch := htaken.subset (List.mem_map_of_mem hstride)
    rw [hbatches] at hbatch
    obtain ⟨piece, hpiece, heq⟩ := List.mem_map.mp hbatch
    refine ⟨piece, heq.symm, fun i hi => ?_⟩
    have hi := hbelow hpiece i hi
    omega
  · rw [flatten_chunks]
    exact hperm
  · exact htaken.eq_of_length (by rw [List.length_map, hcomplete])
  · obtain ⟨hheld, run', t', hconfig, rfl⟩ := validation_of_course hvalidation
    rw [h.validation, hdivision.heldOut] at hheld
    split at hheld
    · next hlt =>
      obtain rfl := Option.some.inj hheld
      refine ⟨hlt, rfl, fun m hm => ?_⟩
      obtain ⟨id, _, _, hevaluated⟩ := Attempt.bind_eq_ok.mp (Prod.ext hm rfl)
      rw [hconfig, h.config] at hevaluated
      have hmean := (meanOver_of_evaluateOn hevaluated).of_drop
      rw [List.range'_eq_map_range]
      rwa [show (samples.drop kept).inputs.length = samples.inputs.length - kept from Samples.length_drop _ _] at hmean
    · contradiction

/-! ## Whole runs -/

/-- How far a run can get that is asked for, whatever else is done to its trainer between two epochs. -/
inductive Reaches (request : TrainingRequest α) : Progress α → Prop
  | start : Reaches request (.waiting request)
  | next {signals : StopSignals} {p p' : Progress α} {t t' : Trainer α} {event? : Option (EpochEnd α)}
    (h : Reaches request p) (hnext : next signals p t = (.ok (event?, p'), t')) : Reaches request p'

/-- A run goes on with what it began with. -/
theorem Equipped.advance {event? : Option (EpochEnd α)} (h : Equipped request run samples given)
    (ht : t.stopRequested = false) (hadvance : Trainer.advance signals run t = (.ok (event?, .paused run'), t')) :
    Equipped request run' samples given := by
  rcases advance_eq_ok hadvance with ⟨_, _, hended, _⟩ | ⟨_, run₁, t₁, hran, ⟨_, hended⟩ | ⟨_, hpaused, _⟩⟩
  · contradiction
  · contradiction
  · obtain rfl := Progress.paused.inj hpaused
    obtain ⟨tally, stopped, htaken, _⟩ := runEpoch_eq_ok ht hran
    have hconfig : run'.config = run.config := (congrArg (·.config) htaken.setup :)
    have hepochs : run'.epochs = run.epochs := (congrArg (·.epochs) htaken.setup :)
    have hloader : run'.loader = run.loader := (congrArg (·.loader) htaken.setup :)
    have hvalidation : run'.validation = run.validation := (congrArg (·.validation) htaken.setup :)
    exact ⟨h.reads, h.readsGiven, hconfig.trans h.config, hepochs ▸ h.epochs, hloader ▸ h.loader, h.nonempty,
      hvalidation.trans h.validation⟩

/-- A run is at its end after it was taken on, or at the end of an epoch. -/
theorem next_eq_ok {p' : Progress α} {event? : Option (EpochEnd α)} (h : next signals p t = (.ok (event?, p'), t')) :
    (∃ steps, p' = .ended steps) ∨ ∃ run run' t₀, opening t p = some (run, t₀) ∧ p' = .paused run' ∧
      advance signals run t₀ = (.ok (event?, p'), t') := by
  cases hopening : opening t p with
  | some at₀ =>
      obtain ⟨run, t₀⟩ := at₀
      rw [next_of_opening hopening] at h
      rcases advance_eq_ok h with ⟨_, _, rfl, _⟩ | ⟨_, run', _, _, ⟨_, rfl⟩ | ⟨_, rfl, _⟩⟩
      · exact .inl ⟨_, rfl⟩
      · exact .inl ⟨_, rfl⟩
      · exact .inr ⟨run, run', t₀, rfl, rfl, h⟩
  | none =>
      cases p with
      | waiting request =>
          obtain ⟨run, t₁, hbegin, _⟩ := Attempt.bind_eq_ok.mp h
          rw [opening, hbegin] at hopening
          contradiction
      | paused run =>
          rw [opening] at hopening
          split at hopening
          · next hstopped =>
            rw [next_of_stopped hstopped] at h
            exact .inl ⟨_, (finish_eq_ok h).2.1⟩
          · contradiction
      | ended steps =>
          obtain ⟨hresult, _⟩ := Attempt.pure_eq_ok.mp h
          exact .inl ⟨steps, (Prod.mk.inj hresult).2.symm⟩

/-- A run that goes on does so with what it began with. -/
theorem Reaches.equipped (h : Reaches request p) (hopening : opening t p = some (run, t₀)) :
    ∃ samples given, Equipped request run samples given := by
  induction h generalizing t run t₀ with
  | start =>
      obtain ⟨_, hp, hbegin⟩ | ⟨hp, _⟩ := opening_eq_some hopening
      · obtain rfl := Progress.waiting.inj hp
        obtain ⟨⟨samples, given, hbegun⟩, _⟩ := begin_eq_ok hbegin
        exact ⟨samples, given, hbegun.toEquipped⟩
      · contradiction
  | @next signals p p' t₁ t₁' event? h hnext ih =>
      obtain ⟨steps, rfl⟩ | ⟨run₁, run₁', t₀', hopening₁, rfl, hadvance⟩ := next_eq_ok hnext
      · contradiction
      · obtain ⟨samples, given, hequipped⟩ := ih hopening₁
        obtain ⟨_, hp, _⟩ | ⟨hp, _⟩ := opening_eq_some hopening
        · contradiction
        · obtain rfl := Progress.paused.inj hp
          exact ⟨samples, given, hequipped.advance (running_of_opening hopening₁) hadvance⟩

/-- An event tells of the epoch that comes next. -/
theorem tells_of_next {p' : Progress α} {event : EpochEnd α} (hopening : opening t p = some (run, t₀))
    (h : next signals p t = (.ok (some event, p'), t')) :
    Tells event (course signals run t₀) ∧ event.validation.isSome = run.validation.isSome := by
  rw [next_of_opening hopening] at h
  rcases advance_eq_ok h with ⟨_, hnone, _⟩ | ⟨_, run', t₁, hran, _⟩
  · contradiction
  · obtain ⟨_, _, _, _, ⟨_, hnone⟩ | ⟨event', hevent, _, htells, hvalidates, _⟩⟩ :=
      runEpoch_eq_ok (running_of_opening hopening) hran
    · contradiction
    · obtain rfl := Option.some.inj hevent
      exact ⟨htells, hvalidates⟩

/-- Let a run be asked for without samples to validate it on, and `s` be where the ratio of its `n` samples ends that is
not to be held out.  Wherever the run is taken on, and whatever was done to its trainer before, its next epoch keeps to
the division at `s`: its steps only take samples before `s`, its batches go through each of them once and with its own
label, and what it is validated on is the samples from `s` on, each once and in order.  An event with metrics of a
validation is one of a run that has such samples.  If `s` is not behind the first sample nothing is held out, and the
epoch goes through all samples. -/
theorem trained_apart (signals : StopSignals) {v : Number} {s : Int} (hgiven : request.validation = none)
    (hsamples : LabelledSamples.ofTensors request.inputs request.labels = .ok samples)
    (hsplit : request.config.validationSplit.quantity? = some v) (hpos : Number.lt (.int 0) v = true)
    (hs : (v.complement.share samples.inputs.length).truncate? = some s) (hreaches : Reaches request p)
    (hopening : opening t p = some (run, t₀)) :
    ∃ kept, kept = (if 0 < s then s.toNat else samples.inputs.length) ∧
      Apart request.config.loss samples kept (course signals run t₀) ∧
      ∀ event p' t', next signals p t = (.ok (some event, p'), t') → Tells event (course signals run t₀) ∧
        (event.validation.isSome = true ↔ kept < samples.inputs.length) := by
  obtain ⟨samples', given, hequipped⟩ := hreaches.equipped hopening
  obtain rfl := Except.ok.inj (hsamples.symm.trans hequipped.reads)
  obtain rfl : none = given := by
    have hreads := hequipped.readsGiven
    rw [hgiven] at hreads
    exact Except.ok.inj hreads
  have hdivision := division_of_split hsplit hpos hs
  generalize hkept : (if 0 < s then s.toNat else samples.inputs.length) = kept at hdivision
  refine ⟨kept, rfl, hequipped.apart hdivision signals t₀, fun event p' t' hnext => ?_⟩
  obtain ⟨htells, hvalidates⟩ := tells_of_next hopening hnext
  refine ⟨htells, ?_⟩
  rw [hvalidates, hequipped.validation, hdivision.heldOut]
  split
  · next hlt => exact ⟨fun _ => hlt, fun _ => rfl⟩
  · next hge => exact ⟨nofun, fun hlt => absurd hlt hge⟩

/-- The share that is held out where none is set: a fifth. -/
def fifth : Value := TrainingOption.validationSplit.default

/-- Of three samples two are trained on and the last is held out. -/
theorem trained_apart_two :
    let request := lessons 3 fifth
    ∃ samples v run t₀, request.validation = none ∧
      LabelledSamples.ofTensors request.inputs request.labels = .ok samples ∧
      request.config.validationSplit.quantity? = some v ∧ Number.lt (.int 0) v = true ∧
      (v.complement.share samples.inputs.length).truncate? = some 2 ∧ Reaches request (.waiting request) ∧
      opening paired (.waiting request) = some (run, t₀) ∧ (course {} run t₀).strides.length = 2 ∧
      Apart request.config.loss samples 2 (course {} run t₀) := by
  intro request
  have hsteps : ((opening paired (.waiting request)).map fun (run, t) => (course {} run t).strides.length) = some 2 := by
    decide +kernel
  obtain ⟨⟨run, t₀⟩, hopening, hlength⟩ := Option.map_eq_some_iff.mp hsteps
  have hgiven : request.validation = none := rfl
  have hshare : ((Number.double (.ofDecimal false 2 (-1))).complement.share 3).truncate? = some 2 := by decide +kernel
  have hpos : Number.lt (.int 0) (.double (.ofDecimal false 2 (-1))) = true := by decide +kernel
  obtain ⟨kept, hkept, hapart, _⟩ := trained_apart {} hgiven rfl rfl hpos hshare .start hopening
  obtain rfl : kept = 2 := hkept
  exact ⟨_, _, run, t₀, rfl, rfl, rfl, hpos, hshare, .start, hopening, hlength, hapart⟩

/-- Of a lone sample nothing is before the split, and yet a run begins and a step takes it. -/
theorem trained_on_lone :
    let request := lessons 1 fifth
    ∃ v run t₀, request.validation = none ∧ request.config.validationSplit.quantity? = some v ∧
      Number.lt (.int 0) v = true ∧ Number.lt v (.int 1) = true ∧ (v.complement.share 1).truncate? = some 0 ∧
      begin request paired = (.ok run, t₀) ∧ ∃ stride ∈ (course {} run t₀).strides, stride.batch.inputs.length = 1 := by
  intro request
  have hsteps : ((opening paired (.waiting request)).map fun (run, t) =>
      (course {} run t).strides.map (·.batch.inputs.length)) = some [1] := by decide +kernel
  obtain ⟨⟨run, t₀⟩, hopening, hlengths⟩ := Option.map_eq_some_iff.mp hsteps
  have hshare : ((Number.double (.ofDecimal false 2 (-1))).complement.share 1).truncate? = some 0 := by decide +kernel
  obtain ⟨_, hp, hbegin⟩ | ⟨hp, _⟩ := opening_eq_some hopening
  · obtain rfl := Progress.waiting.inj hp
    obtain ⟨stride, hstride, hlength⟩ := List.mem_map.mp (hlengths ▸ List.mem_singleton_self 1)
    exact ⟨_, run, t₀, rfl, rfl, by decide +kernel, by decide +kernel, hshare, hbegin, stride, hstride, hlength⟩
  · contradiction

end Trainer

end LayerStack
