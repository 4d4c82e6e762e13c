import LayerStack.Proofs.Training.Build

/-!
# LayerStack.Proofs.Training.Acts

Trainers over whole runs of acts.

Whatever is done with a trainer, of the models it has made none but the one it keeps is alive, and nothing else is held
on its account (`Owns`): that is so of a new trainer, every act leaves it so (`Owns.act`), and so does a run of acts.  A
build after any run shows what it shows on a new trainer with the same data (`builds_afresh`).
-/

namespace LayerStack

variable {α : Type}

/-! ## What a trainer owns -/

namespace Session

/-- What is run on a model touches nothing but the models and the stream. -/
theorem visit_eq {β : Type} (id : Identity) (run : Model α → Draw (Except RunError β × Model α)) (s : Session α) :
    ∃ stream models, (visit id run s).2 = { s with stream, models } := by
  rw [visit]
  cases s.model? id with
  | none => exact ⟨s.stream, s.models, rfl⟩
  | some m => exact ⟨_, _, rfl⟩

end Session

namespace Trainer

open Session Attempt

/-- A session as a trainer found it and as it is now: the models that were alive then are alive, and the one that its
compiler has. -/
structure Owns (s₀ s : Session α) (c : ModelCompiler) : Prop where
  found : s₀.Accounts
  accounts : s.Accounts
  follows : Follows s₀ s
  settled : c.Settled
  builders : s.builders = s₀.builders
  isRead : s.isRead = s₀.isRead
  own : ∀ id, c.model = some id → s₀.next ≤ id
  alive : ∀ id, s.IsAlive id ↔ s₀.IsAlive id ∨ c.model = some id

theorem owns_start {s : Session α} (h : s.Accounts) : Owns s s {} where
  found := h
  accounts := h
  follows := Follows.refl s
  settled := ModelCompiler.settled_new
  builders := rfl
  isRead := rfl
  own := nofun
  alive _ := ⟨.inl, fun halive => halive.resolve_right nofun⟩

namespace Owns

variable {s₀ s s' : Session α} {c c' : ModelCompiler} (h : Owns s₀ s c)

include h

/-- The models that a trainer found are not its own. -/
theorem model_ne {id : Identity} (halive : s₀.IsAlive id) : c.model ≠ some id := by
  intro hmodel
  obtain ⟨m, hm, _⟩ := halive
  exact absurd (h.found.known (id, m) (Entries.mem_of_lookup hm)) (Nat.not_lt.mpr (h.own id hmodel))

/-- While no model comes or goes, everything else is free to change. -/
theorem session (haccounts : s'.Accounts ∧ Follows s s') (hbuilders : s'.builders = s.builders)
    (hread : s'.isRead = s.isRead) (halive : ∀ id, s'.IsAlive id ↔ s.IsAlive id) : Owns s₀ s' c where
  found := h.found
  accounts := haccounts.1
  follows := h.follows.trans haccounts.2
  settled := h.settled
  builders := hbuilders.trans h.builders
  isRead := hread.trans h.isRead
  own := h.own
  alive id := (halive id).trans (h.alive id)

theorem told (log : Array LogEntry) : Owns s₀ { s with log } c :=
  h.session (h.accounts.congr _ rfl rfl rfl) rfl rfl fun _ => .rfl

theorem drawn (stream : Stream) : Owns s₀ { s with stream } c :=
  h.session (h.accounts.congr _ rfl rfl rfl) rfl rfl fun _ => .rfl

theorem visit {β : Type} (id : Identity) (run : Model α → Draw (Except RunError β × Model α))
    (hkeeps : ∀ (m : Model α) stream, m.operators.length = m.plan.layers.length → m.Keeps (run m stream).1.2) :
    Owns s₀ (Session.visit id run s).2 c := by
  obtain ⟨stream, models, hvisit⟩ := visit_eq id run s
  exact h.session (h.accounts.visit id run hkeeps) (by rw [hvisit]) (by rw [hvisit])
    (h.accounts.isAlive_visit id run hkeeps)

/-- Another compiler with the same model. -/
theorem compiler (hsettled : c'.Settled) (hmodel : c'.model = c.model) : Owns s₀ s c' where
  found := h.found
  accounts := h.accounts
  follows := h.follows
  settled := hsettled
  builders := h.builders
  isRead := h.isRead
  own id hid := h.own id (hmodel ▸ hid)
  alive id := hmodel ▸ h.alive id

/-- A compiler that lets go of its model for another one, or for none. -/
theorem exchange (haccounts : s'.Accounts ∧ Follows s s') (hsettled : c'.Settled) (hbuilders : s'.builders = s.builders)
    (hread : s'.isRead = s.isRead) (hown : ∀ id, c'.model = some id → s₀.next ≤ id)
    (halive : ∀ id, s'.IsAlive id ↔ c'.model = some id ∨ s.IsAlive id ∧ c.model ≠ some id) : Owns s₀ s' c' where
  found := h.found
  accounts := haccounts.1
  follows := h.follows.trans haccounts.2
  settled := hsettled
  builders := hbuilders.trans h.builders
  isRead := hread.trans h.isRead
  own := hown
  alive := by
    intro id
    rw [halive, h.alive]
    constructor
    · rintro (hnew | ⟨hfound | hold, hother⟩)
      · exact .inr hnew
      · exact .inl hfound
      · exact absurd hold hother
    · rintro (hfound | hnew)
      · exact .inr ⟨.inl hfound, h.model_ne hfound⟩
      · exact .inl hnew

theorem release (hsettled : c'.Settled) (hmodel : c'.model = none) : Owns s₀ (c.release s).2 c' := by
  obtain ⟨log, models, memory, hreleased⟩ := ModelCompiler.release_eq c s
  refine h.exchange (h.accounts.release c) hsettled (by rw [hreleased]) (by rw [hreleased]) ?own fun id => ?alive
  case own =>
    rw [hmodel]
    exact nofun
  case alive =>
    rw [isAlive_release, hmodel]
    exact (or_iff_right nofun).symm

theorem compile {design : Session.Design} {r : (Except Failure Identity × ModelCompiler) × Session α}
    (hstep : c.CompileStep design s r) : Owns s₀ r.2 r.1.2 := by
  have hmodel (id : Identity) : r.1.2.model = some id ↔ r.1.1 = .ok id := by
    rw [h.settled.model_compile hstep, toOption_eq_some]
  obtain ⟨hbuilders, hread, hnext⟩ := ModelCompiler.equipment_compile hstep
  refine h.exchange (h.accounts.compileBy hstep) (h.settled.compile hstep) hbuilders hread (fun id hid => ?own)
    fun id => ?alive
  case own =>
    rw [hnext id ((hmodel id).mp hid)]
    exact h.follows.next
  case alive =>
    rw [isAlive_compileBy h.settled hstep, hmodel]

end Owns

variable [Scalar α] {s₀ s₁ : Session α} {t : Trainer α}

omit [Scalar α] in
/-- What a trainer owned it owns still. -/
def StillOwns (s₀ : Session α) (t t' : Trainer α) : Prop :=
  Owns s₀ t.session t.compiler → Owns s₀ t'.session t'.compiler

/-- Exercises leave a trainer with what it owned. -/
theorem running_stillOwns (s₀ : Session α) : Running (StillOwns s₀) where
  refl _ := id
  trans h h' := h' ∘ h
  told _ log h := h.told log
  drawn _ stream h := h.drawn stream
  pass _ id training x h := h.visit id _ fun m stream _ => Model.keeps_forward m training x stream
  wayBack _ id g h := h.visit id _ fun m _ _ => Model.keeps_backward m g
  asked _ id question h := h.visit id (fun m => pure (question m, m)) fun m _ _ => Model.Keeps.refl m
  moved := by
    rintro t _ id o ⟨gradients, parameters, _, rfl⟩ h
    have hasked := h.visit id (fun m => pure (m.parameters, m)) fun m _ _ => Model.Keeps.refl m
    exact hasked.visit id _ fun m _ hlength => Model.keeps_change hlength (TensorChange.ofValues _)
  noted _ _ _ := id

/-! ## Acts -/

omit [Scalar α] in
/-- A dataset, or the name of one. -/
inductive Source (α : Type) where
  | given (dataset : Dataset α)
  | named (name : String)

omit [Scalar α] in
def Source.find : Source α → Attempt (Trainer α) (Dataset α)
  | .given dataset => pure dataset
  | .named name => dataset name

omit [Scalar α] in
/-- What is done with a trainer.  A run is begun or gone on with as far as the end of an epoch, or ended from outside; all
other operations come to their end. -/
inductive Act (α : Type) where
  | load (source : Source α) (options : LoadOptions)
  | build (design : Session.Design) (classes : Option Value)
  | train (signals : StopSignals) (design : List Value) (source : Option (Source α)) (config : TrainingConfig)
  | exercise (exercise : Exercise α)
  | next (signals : StopSignals) (progress : Progress α)
  | close (progress : Progress α)
  | requestStop
  | dispose

/-- A trainer after one more act, whatever came of it. -/
def act (t : Trainer α) : Act α → Trainer α
  | .load source options => ((do load (← source.find) options) t).2
  | .build design classes => (build design classes t).2
  | .train signals design source config => (train signals design (source.map Source.find) config t).2
  | .exercise exercise => t.exercise exercise
  | .next signals p => (next signals p t).2
  | .close p => (close p t).2
  | .requestStop => (requestStop t).2
  | .dispose => (dispose t).2

/-- A trainer after some acts. -/
def run (t : Trainer α) (acts : List (Act α)) : Trainer α := acts.foldl act t

omit [Scalar α] in
theorem keeps_find {T : Trainer α → Trainer α → Prop} (hrefl : ∀ t, T t t)
    (htrans : ∀ {t t' t''}, T t t' → T t' t'' → T t t'') (source : Source α) : Keeps T source.find := by
  cases source with
  | given dataset => exact keeps_pure hrefl dataset
  | named name => exact keeps_bind htrans (keeps_get hrefl) fun t => keeps_outcome hrefl _

/-- What is loaded is not owned. -/
theorem keeps_load (dataset : Dataset α) (options : LoadOptions) : Keeps (StillOwns s₀) (load dataset options) := by
  have hrunning := running_stillOwns s₀
  rw [load]
  refine keeps_bind hrunning.trans (keeps_attempt fun t => hrunning.drawn t _) fun data => ?_
  refine keeps_bind hrunning.trans (hrunning.keeps_tell _) fun _ => ?_
  exact keeps_bind hrunning.trans (fun t h => h) fun _ => keeps_pure hrunning.refl data

omit [Scalar α] in
/-- A build that comes to a compilation lets go of the model there was. -/
theorem keeps_build (design : Session.Design) (classes : Option Value) : Keeps (StillOwns s₀) (build design classes) := by
  intro t h
  obtain ⟨result, -, htells⟩ := designFor_tells (α := α) design classes t.loaded t.session.isRead
  obtain ⟨log, hdesign⟩ := htells t rfl rfl
  have hstep := buildStep h.settled hdesign
  generalize build design classes t = r at hstep
  cases hstep with
  | refused e log => exact h.told log
  | compiled hc _ hmodel hstep log' => exact (((h.told _).compiler hc hmodel).compile hstep).told log'

/-- Builds a design for some data, trains it and tests it. -/
def trainOn (signals : StopSignals) (design : List Value) (config : TrainingConfig) (data : LoadedData α) :
    Attempt (Trainer α) (TrainingHistory α) := do
  discard (build (LayerRecord.ofValues 0 design) none)
  let history ← fit signals { inputs := data.train.inputs.toTensor, labels := data.train.labels.toTensor, config }
  if data.test.inputs.length = 0 then return history
  let result ← evaluateOn (← requireModel) data.test config.loss config.batchSize
  tell (.tested (told result))
  return { history with test := some result }

theorem keeps_trainOn (signals : StopSignals) (design : List Value) (config : TrainingConfig) (data : LoadedData α) :
    Keeps (StillOwns s₀) (trainOn signals design config data) := by
  have hrunning := running_stillOwns s₀
  rw [trainOn]
  refine keeps_bind hrunning.trans (keeps_discard hrunning.refl hrunning.trans (keeps_build _ _)) fun _ => ?_
  refine keeps_bind hrunning.trans (hrunning.keeps_fit signals _) fun history => ?_
  split
  · exact keeps_pure hrunning.refl history
  · refine keeps_bind hrunning.trans (keeps_requireModel hrunning.refl) fun id => ?_
    refine keeps_bind hrunning.trans (hrunning.keeps_evaluateOn id _ _ _) fun result => ?_
    exact keeps_bind hrunning.trans (hrunning.keeps_tell _) fun _ => keeps_pure hrunning.refl _

/-- Trains a design on the data there is. -/
def trainLoaded (signals : StopSignals) (design : List Value) (config : TrainingConfig) :
    Option (DatasetMetadata × LoadedData α) → Attempt (Trainer α) (TrainingHistory α)
  | none => throw (.run .noDataset)
  | some (_, data) => trainOn signals design config data

theorem keeps_train (signals : StopSignals) (design : List Value) (source : Option (Source α)) (config : TrainingConfig) :
    Keeps (StillOwns s₀) (train signals design (source.map Source.find) config) := by
  have hrunning := running_stillOwns s₀
  have hrest : Keeps (StillOwns s₀) (get >>= fun t : Trainer α => trainLoaded signals design config t.loaded) := by
    refine keeps_bind hrunning.trans (keeps_get hrunning.refl) fun t => ?_
    cases t.loaded with
    | none => exact keeps_throw hrunning.refl _
    | some p => exact keeps_trainOn signals design config p.2
  rw [train]
  split
  · rw [throw_bind]
    exact keeps_throw hrunning.refl _
  · cases source with
    | none => exact hrest
    | some source =>
        refine keeps_bind hrunning.trans (keeps_find hrunning.refl hrunning.trans source) fun dataset => ?_
        have hloaded := keeps_discard hrunning.refl hrunning.trans (keeps_load dataset {})
        exact keeps_bind hrunning.trans hloaded fun _ => hrest

omit [Scalar α] in
theorem dispose_eq (t : Trainer α) : ∃ log, (dispose t).2 =
    { t with
      loaded := none
      compiler := (t.compiler.dispose t.session).1
      session := { (t.compiler.release t.session).2 with log } } := by
  refine ⟨((dispose t).2).session.log, ?_⟩
  have hsession : (t.compiler.dispose t.session).2 = (t.compiler.release t.session).2 := by
    rw [ModelCompiler.dispose_eq]
  rw [← hsession]
  rfl

theorem Owns.act (h : Owns s₀ t.session t.compiler) (act : Act α) :
    Owns s₀ (t.act act).session (t.act act).compiler := by
  have hrunning := running_stillOwns s₀
  cases act with
  | load source options =>
      have hloaded : Keeps (StillOwns s₀) (source.find >>= fun dataset => load dataset options) :=
        keeps_bind hrunning.trans (keeps_find hrunning.refl hrunning.trans source) fun dataset =>
          keeps_load dataset options
      exact hloaded t h
  | build design classes => exact keeps_build design classes t h
  | train signals design source config => exact keeps_train signals design source config t h
  | exercise exercise => exact hrunning.exercise exercise t h
  | next signals p => exact hrunning.keeps_next signals p t h
  | close p => cases p <;> exact h
  | requestStop => exact h
  | dispose =>
      obtain ⟨log, hdispose⟩ := dispose_eq t
      have hmodel : (t.compiler.dispose t.session).1.model = none := by rw [ModelCompiler.dispose_eq]
      show Owns s₀ (dispose t).2.session (dispose t).2.compiler
      rw [hdispose]
      exact (h.release (h.settled.dispose t.session) hmodel).told log

theorem Owns.run (h : Owns s₀ t.session t.compiler) (acts : List (Act α)) :
    Owns s₀ (t.run acts).session (t.run acts).compiler := by
  induction acts generalizing t with
  | nil => exact h
  | cons act acts ih => exact ih (h.act act)

/-! ## Builds after acts -/

/-- What a build comes to after any acts.  It shows what it shows on a new trainer with the same data, from random numbers
of its own: the same failure, or the same plan and counts of a model that is alive and kept.  With the stock builders it
never fails over the state of a model or of the compiler.  Besides what the trainer found no model is tracked but the one
it keeps; once it is disposed of, it has no data and no model, and the counters are those that it found. -/
theorem builds_afresh (hs : s₀.Accounts) (hsteady : s₀.builders.Steady) (hbuilders : s₁.builders = s₀.builders)
    (hread : s₁.isRead = s₀.isRead) (acts : List (Act α)) :
    let t := ({ session := s₀ } : Trainer α).run acts
    (∀ design classes,
      let r := build design classes t
      seen r = seen (build design classes { session := s₁, loaded := t.loaded }) ∧
        (∀ id, r.1 = .ok id → r.2.compiler.model = some id ∧ r.2.session.IsAlive id) ∧
        (s₀.builders = .stock → ∀ e, r.1 = .error (.run e) → e.errorClass ≠ .modelState)) ∧
    (∀ id, t.session.memory.isTracked id ↔ s₀.memory.isTracked id ∨ t.compiler.model = some id) ∧
    (∀ id, t.compiler.model = some id → ¬ s₀.memory.isTracked id) ∧
    let t' := t.act .dispose
    t'.loaded = none ∧ t'.compiler.model = none ∧ t'.session.memory.info = s₀.memory.info := by
  intro t
  have howns : Owns s₀ t.session t.compiler := Owns.run (owns_start hs) acts
  refine ⟨fun design classes => ⟨?seen, fun id hid => ?alive, fun hstock e he => ?state⟩, fun id => ?tracked,
    fun id hmodel htracked => ?own, ?disposed⟩
  case seen =>
    have hloaded : ({ session := s₁, loaded := t.loaded } : Trainer α).loaded = t.loaded := rfl
    exact seen_build howns.settled ModelCompiler.settled_new hloaded (hbuilders.trans howns.builders.symm)
      (hread.trans howns.isRead.symm) (howns.builders ▸ hsteady) design classes
  case alive =>
    obtain ⟨result, -, htells⟩ := designFor_tells design classes t.loaded t.session.isRead
    obtain ⟨log, hdesign⟩ := htells t rfl rfl
    have hmodel := (buildStep howns.settled hdesign).model_eq hid
    exact ⟨hmodel, ((keeps_build design classes t howns).alive id).mpr (.inr hmodel)⟩
  case state => exact errorClass_build howns.settled (howns.builders.trans hstock) he
  case tracked => rw [howns.accounts.isTracked_iff, hs.isTracked_iff, howns.alive]
  case own => exact howns.model_ne (hs.isTracked_iff.mp htracked) hmodel
  case disposed =>
    intro t'
    have howns' : Owns s₀ t'.session t'.compiler := howns.act .dispose
    obtain ⟨log, hdispose⟩ := dispose_eq t
    have hmodel : t'.compiler.model = none := by
      show (dispose t).2.compiler.model = none
      rw [hdispose, ModelCompiler.dispose_eq]
    refine ⟨congrArg loaded hdispose, hmodel, hs.info_congr howns'.accounts howns'.follows fun id => ?_⟩
    rw [howns'.alive, hmodel]
    exact or_iff_left nofun

/-- A compiler that failed behind a model of its own builds that model again, from other random numbers. -/
theorem builds_afresh_failed :
    let t : Trainer Float := run { session := .start 7 true } [.build tabled none, .build (.ok []) none]
    t.compiler.state = .failed ∧ (seen (build tabled none t)).map (Option.map (·.2)) = .ok (some (6, 16)) ∧
      (t.act .dispose).session.memory.info = ⟨0, 0⟩ := by
  intro t
  obtain ⟨hbuild, _, _, _, _, hinfo⟩ := builds_afresh (accounts_start 7 true) OperatorBuilders.steady_stock
    (rfl : (Session.start 9 true : Session Float).builders = _) rfl [.build tabled none, .build (.ok []) none]
  obtain ⟨hseen, _⟩ := hbuild tabled none
  refine ⟨by decide +kernel, ?_, hinfo⟩
  rw [hseen]
  rfl

end Trainer

end LayerStack
