import LayerStack.Proofs.Compiler.Memory
import LayerStack.Proofs.Session.Blueprint
import LayerStack.Proofs.Training.Exercise

/-!
# LayerStack.Proofs.Training.Build

What one build comes to.

A design is built with what there is to know of its head, and that is the loaded data and whether the log is read
(`designFor_tells`).  A compiler that has failed starts anew before, and one that has a model lets go of it
(`buildStep`).  So what is seen of a build is what is seen of the blueprint that the builders make of its design
(`seen_build`).
-/

namespace LayerStack

open Attempt

variable {α β : Type}

/-! ## Designs -/

/-- An entry about a head that has no wording is not the fault of a model. -/
theorem LogEntry.errorClass_of_headAdded {classes : Value} {e : RunError}
    (h : (LogEntry.headAdded classes).unworded? = some e) : e.errorClass ≠ .modelState := by
  rw [unworded?] at h
  split at h
  · obtain rfl := Option.some.inj h
    decide
  · split at h
    · contradiction
    · split at h <;>
      · obtain rfl := Option.some.inj h
        decide

namespace Session

/-- Whether an entry can be told depends on nothing but whether the log is read. -/
theorem report_tells (entry : LogEntry) (isRead : Bool) : ∃ result : Except RunError Unit,
    (∀ e, result = .error e → entry.unworded? = some e) ∧
      ∀ s : Session α, s.isRead = isRead → ∃ log, report entry s = (result, { s with log }) := by
  cases hread : isRead with
  | false => exact ⟨.ok (), nofun, fun s hs => ⟨_, by rw [report, hs]⟩⟩
  | true =>
      cases hworded : entry.unworded? with
      | none => exact ⟨.ok (), nofun, fun s hs => ⟨_, by rw [report, hs, hworded]⟩⟩
      | some e =>
          refine ⟨.error e, fun e' he => congrArg some (Except.error.inj he), fun s hs => ⟨s.log, ?_⟩⟩
          have hreport : report entry s = (.error e, s) := by rw [report, hs, hworded]
          exact hreport

end Session

namespace Head

/-- What comes of asking for a head depends on nothing but whether the log is read, and is not the fault of a model. -/
theorem ensure_tells (design : Session.Design) (classes : Value) (isRead : Bool) :
    ∃ result : Except Failure (List LayerRecord), (∀ e, result = .error (.run e) → e.errorClass ≠ .modelState) ∧
      ∀ s : Session α, s.isRead = isRead → ∃ log, ensure design classes s = (result, { s with log }) := by
  cases design with
  | error e => exact ⟨.error (.analysis (.design e)), nofun, fun s _ => ⟨s.log, rfl⟩⟩
  | ok records =>
      simp only [ensure]
      by_cases hlong : records.length < 2
      · simp only [if_pos hlong]
        exact ⟨.error (.analysis (.design .noHead)), nofun, fun s _ => ⟨s.log, rfl⟩⟩
      · simp only [if_neg hlong]
        cases isThere classes records with
        | error e => exact ⟨.error (.analysis (.fault e)), nofun, fun s _ => ⟨s.log, rfl⟩⟩
        | ok there =>
            cases there with
            | true => exact ⟨.ok records, nofun, fun s _ => ⟨s.log, rfl⟩⟩
            | false =>
                obtain ⟨result, hresult, hreport⟩ := Session.report_tells (α := α) (.headAdded classes) isRead
                cases result with
                | error e =>
                    refine ⟨.error (.run e), fun e' he => ?_, fun s hs => ?_⟩
                    · obtain rfl := Failure.run.inj (Except.error.inj he)
                      exact LogEntry.errorClass_of_headAdded (hresult e rfl)
                    · obtain ⟨log, htold⟩ := hreport s hs
                      refine ⟨log, ?_⟩
                      dsimp only
                      rw [add, run_bind, htold]
                      rfl
                | ok _ =>
                    refine ⟨((Session.analysis (.ok records)).map fun plan =>
                      append records plan.output.length classes).mapError .analysis, fun e he => ?_, fun s hs => ?_⟩
                    · cases hplan : Session.analysis (.ok records) with
                      | error e' =>
                          rw [hplan] at he
                          cases he
                      | ok plan =>
                          rw [hplan] at he
                          cases he
                    · obtain ⟨log, htold⟩ := hreport s hs
                      obtain ⟨log', hplan⟩ := Session.plan_eq (.ok records) { s with log }
                      refine ⟨log', ?_⟩
                      dsimp only
                      rw [add, run_bind, htold]
                      simp only [run_bind, hplan]
                      rfl

end Head

/-! ## Compilers -/

namespace ModelCompiler

variable {c : ModelCompiler} {s : Session α} {design : Session.Design}

/-- Letting go of a model touches nothing but the log, the models and the memory. -/
theorem release_eq (c : ModelCompiler) (s : Session α) :
    ∃ log models memory, (c.release s).2 = { s with log, models, memory } := by
  cases hmodel : c.model with
  | none =>
      rw [release_of_none hmodel]
      exact ⟨s.log, s.models, s.memory, rfl⟩
  | some id =>
      rw [release_of_some hmodel]
      have hstep := Session.disposeStep id s
      generalize (Session.dispose id s).2 = s' at hstep
      cases hstep with
      | idle | disposed => exact ⟨_, _, _, rfl⟩

/-- A compiler has the model it returns, and none where it fails. -/
theorem Settled.model_compile (h : c.Settled) {r : (Except Failure Identity × ModelCompiler) × Session α}
    (hstep : CompileStep c design s r) : r.1.2.model = r.1.1.toOption := by
  cases hstep with
  | refused hstate => exact h.model_eq_none hstate
  | failed | compiled => rfl

/-- A compiler leaves the builders of its session and how its log is read, and gives a new model the next identity. -/
theorem equipment_compile {r : (Except Failure Identity × ModelCompiler) × Session α} (hstep : CompileStep c design s r) :
    r.2.builders = s.builders ∧ r.2.isRead = s.isRead ∧ ∀ id, r.1.1 = .ok id → id = s.next := by
  obtain ⟨log, models, memory, hreleased⟩ := release_eq c s
  cases hstep with
  | refused => exact ⟨rfl, rfl, nofun⟩
  | failed _ hfailed log' =>
      rw [hreleased] at hfailed
      cases Session.compileStep_of_eq hfailed with
      | failed => exact ⟨rfl, rfl, nofun⟩
  | compiled _ hcompiled =>
      rw [hreleased] at hcompiled
      cases Session.compileStep_of_eq hcompiled with
      | compiled => exact ⟨rfl, rfl, fun id hid => (Except.ok.inj hid).symm⟩

/-- A compiler that has not failed fails as the blueprint does, or returns the model of the blueprint. -/
theorem blueprint_compile (hready : c.state ≠ .failed) {r : (Except Failure Identity × ModelCompiler) × Session α}
    (hstep : CompileStep c design s r) :
    (∃ e, Session.blueprint s.builders design s.stream = .error e ∧ r.1.1 = .error e) ∨
      ∃ m id, Session.blueprint s.builders design s.stream = .ok m ∧ r.1.1 = .ok id ∧ r.2.model? id = some m := by
  obtain ⟨log, models, memory, hreleased⟩ := release_eq c s
  obtain ⟨hresult, hmodel⟩ := Session.compile_eq_blueprint design (c.release s).2
  rw [hreleased] at hresult hmodel
  cases hblueprint : Session.blueprint s.builders design s.stream with
  | error e =>
      rw [hblueprint] at hresult
      cases hstep with
      | refused => contradiction
      | failed _ hfailed log' =>
          rw [hreleased] at hfailed
          rw [hfailed] at hresult
          exact .inl ⟨e, rfl, hresult⟩
      | compiled _ hcompiled =>
          rw [hreleased] at hcompiled
          rw [hcompiled] at hresult
          cases hresult
  | ok m =>
      rw [hblueprint] at hresult
      cases hstep with
      | refused => contradiction
      | failed _ hfailed log' =>
          rw [hreleased] at hfailed
          rw [hfailed] at hresult
          cases hresult
      | compiled _ hcompiled =>
          rw [hreleased] at hcompiled
          have hfound := hmodel m hblueprint
          rw [hcompiled] at hresult hfound
          obtain rfl := Except.ok.inj hresult
          exact .inr ⟨m, _, rfl, rfl, hfound⟩

end ModelCompiler

namespace Trainer

/-- What design is built depends on nothing but the loaded data and whether the log is read. -/
theorem designFor_tells (design : Session.Design) (classes : Option Value)
    (loaded : Option (DatasetMetadata × LoadedData α)) (isRead : Bool) :
    ∃ result : Except Failure (List LayerRecord), (∀ e, result = .error (.run e) → e.errorClass ≠ .modelState) ∧
      ∀ t : Trainer α, t.loaded = loaded → t.session.isRead = isRead →
        ∃ log, designFor design classes t = (result, { t with session := { t.session with log } }) := by
  cases hclasses : classes <|> loaded.map (·.1.classes) with
  | none =>
      refine ⟨design.mapError fun e => .analysis (.design e), fun e he => ?_, fun t hloaded _ => ⟨t.session.log, ?_⟩⟩
      · cases design with
        | error e' => cases he
        | ok records => cases he
      · subst hloaded
        rw [designFor, Attempt.run_bind, Attempt.run_get]
        simp only [hclasses]
        rfl
  | some given =>
      obtain ⟨result, hresult, hensure⟩ := Head.ensure_tells (α := α) design given isRead
      refine ⟨result, hresult, fun t hloaded hread => ?_⟩
      subst hloaded
      obtain ⟨log, htold⟩ := hensure t.session hread
      refine ⟨log, ?_⟩
      rw [designFor, Attempt.run_bind, Attempt.run_get]
      simp only [hclasses]
      show inSession (Head.ensure design given) t = _
      rw [inSession, htold]

/-! ## Builds -/

variable {t t' : Trainer α} {design : Session.Design} {classes : Option Value}

/-- Compiles records in place of the model there is, and tells of it. -/
def compileTold (records : List LayerRecord) : Attempt (Trainer α) Identity := do
  let id ← ExceptT.mk (inCompiler fun c => c.compile (.ok records))
  if let some m := (← get).session.model? id then tell (.built (thousandsText m.trainable) m.summaryText)
  return id

theorem compileTold_eq (records : List LayerRecord) (t : Trainer α) :
    let r := t.compiler.compile (.ok records) t.session
    ∃ log, compileTold records t = (r.1.1, { t with compiler := r.1.2, session := { r.2 with log } }) := by
  intro r
  have hcompiled : ExceptT.mk (inCompiler fun c => c.compile (.ok records)) t =
      (r.1.1, { t with compiler := r.1.2, session := r.2 }) := rfl
  rw [compileTold, Attempt.run_bind, hcompiled]
  rcases r with ⟨⟨e | id, c⟩, s⟩
  · exact ⟨s.log, rfl⟩
  · dsimp only
    rw [Attempt.run_bind, Attempt.run_get]
    dsimp only
    cases s.model? id with
    | none => exact ⟨s.log, rfl⟩
    | some m => exact ⟨_, rfl⟩

/-- What a build can come to: there is no design for it, or the design is compiled by a compiler that has not failed and
has the model that the trainer has. -/
inductive BuildStep (t : Trainer α) : Except Failure (List LayerRecord) → Except Failure Identity × Trainer α → Prop
  | refused (e : Failure) (log : Array LogEntry) :
    BuildStep t (.error e) (.error e, { t with session := { t.session with log } })
  | compiled {records : List LayerRecord} {log : Array LogEntry} {c : ModelCompiler}
    {r : (Except Failure Identity × ModelCompiler) × Session α} (hc : c.Settled) (hready : c.state ≠ .failed)
    (hmodel : c.model = t.compiler.model) (hstep : c.CompileStep (.ok records) { t.session with log } r)
    (log' : Array LogEntry) :
    BuildStep t (.ok records) (r.1.1, { t with compiler := r.1.2, session := { r.2 with log := log' } })

theorem buildStep (hc : t.compiler.Settled) {result : Except Failure (List LayerRecord)} {log : Array LogEntry}
    (hdesign : designFor design classes t = (result, { t with session := { t.session with log } })) :
    BuildStep t result (build design classes t) := by
  have hbuild : build design classes = (do
      let records ← designFor design classes
      if (← get).compiler.state = .failed then resetCompiler
      compileTold records : Attempt (Trainer α) Identity) := rfl
  rw [hbuild, Attempt.run_bind, hdesign]
  cases result with
  | error e => exact .refused e log
  | ok records =>
      dsimp only
      rw [Attempt.run_bind, Attempt.run_get]
      dsimp only
      by_cases hstate : t.compiler.state = .failed
      · -- the compiler has no model to let go of
        have hmodel := hc.model_eq_none hstate
        have hreset : resetCompiler { t with session := { t.session with log } } =
            (.ok (), { t with compiler := {}, session := { t.session with log } }) := by
          show (Except.ok (), ({ t with
            compiler := (t.compiler.reset { t.session with log }).1
            session := (t.compiler.reset { t.session with log }).2 } : Trainer α)) = _
          rw [ModelCompiler.reset_eq, ModelCompiler.release_of_none hmodel]
        rw [if_pos hstate, Attempt.run_bind, hreset]
        obtain ⟨log', htold⟩ := compileTold_eq records { t with compiler := {}, session := { t.session with log } }
        have hstep := ModelCompiler.compileStep ModelCompiler.settled_new.idle (.ok records) { t.session with log }
        dsimp only
        rw [htold]
        exact .compiled ModelCompiler.settled_new (by decide) hmodel.symm hstep log'
      · rw [if_neg hstate]
        obtain ⟨log', htold⟩ := compileTold_eq records { t with session := { t.session with log } }
        have hstep := ModelCompiler.compileStep hc.idle (.ok records) { t.session with log }
        rw [htold]
        exact .compiled hc hstate rfl hstep log'

/-- What is seen of a build: why it fails, or the outline of the model it returns, as long as that is alive. -/
def seen (r : Except Failure Identity × Trainer α) : Except Failure (Option (ShapePlan × Nat × Nat)) :=
  r.1.map fun id => (r.2.session.model? id).bind fun m => m.live.toOption.map Model.outline

/-- A build shows the blueprint of what is built. -/
theorem BuildStep.seen_eq {result : Except Failure (List LayerRecord)} {r : Except Failure Identity × Trainer α}
    (h : BuildStep t result r) : seen r = result.bind fun records =>
      ((Session.blueprint t.session.builders (.ok records) t.session.stream).map Model.outline).map some := by
  cases h with
  | refused e log => rfl
  | @compiled records log c r hc hready hmodel hstep log' =>
      show _ = ((Session.blueprint t.session.builders (.ok records) t.session.stream).map Model.outline).map some
      rcases ModelCompiler.blueprint_compile hready hstep with ⟨e, hblueprint, hresult⟩ | ⟨m, id, hblueprint, hresult, hm⟩
      · rw [hblueprint, seen, hresult]
        rfl
      · have hlive : m.live = .ok m := by rw [Model.live, Session.disposed_of_blueprint hblueprint]; rfl
        have hfound : Session.model? { r.2 with log := log' } id = some m := hm
        rw [hblueprint, seen, hresult]
        show Except.ok ((Session.model? { r.2 with log := log' } id).bind fun m => m.live.toOption.map Model.outline) =
          Except.ok (some m.outline)
        rw [hfound, Option.bind_some, hlive]
        rfl

/-- A build keeps the model it returns. -/
theorem BuildStep.model_eq {result : Except Failure (List LayerRecord)} {r : Except Failure Identity × Trainer α}
    (h : BuildStep t result r) {id : Identity} (hid : r.1 = .ok id) : r.2.compiler.model = some id := by
  cases h with
  | refused e log => cases hid
  | compiled hc _ _ hstep log' =>
      show _ = some id
      rw [hc.model_compile hstep, toOption_eq_some]
      exact hid

/-- Of steady builders two builds of one design show the same. -/
theorem seen_build (hc : t.compiler.Settled) (hc' : t'.compiler.Settled) (hloaded : t'.loaded = t.loaded)
    (hbuilders : t'.session.builders = t.session.builders) (hread : t'.session.isRead = t.session.isRead)
    (hsteady : t.session.builders.Steady) (design : Session.Design) (classes : Option Value) :
    seen (build design classes t) = seen (build design classes t') := by
  obtain ⟨result, -, htells⟩ := designFor_tells design classes t.loaded t.session.isRead
  obtain ⟨log, hdesign⟩ := htells t rfl rfl
  obtain ⟨log', hdesign'⟩ := htells t' hloaded hread
  rw [(buildStep hc hdesign).seen_eq, (buildStep hc' hdesign').seen_eq, hbuilders]
  cases result with
  | error e => rfl
  | ok records =>
      exact congrArg (Except.map some)
        (Session.outline_blueprint hsteady (.ok records) t.session.stream t'.session.stream)

/-- No build fails over the state of a model or of a compiler. -/
theorem errorClass_build [Scalar α] (hc : t.compiler.Settled) (hstock : t.session.builders = .stock) {e : RunError}
    (h : (build design classes t).1 = .error (.run e)) : e.errorClass ≠ .modelState := by
  obtain ⟨result, hresult, htells⟩ := designFor_tells design classes t.loaded t.session.isRead
  obtain ⟨log, hdesign⟩ := htells t rfl rfl
  have hstep := buildStep hc hdesign
  generalize build design classes t = r at h hstep
  cases hstep with
  | refused e' log => exact hresult e (congrArg Except.error (Except.error.inj h))
  | @compiled records log c r hc hready hmodel hstep log' =>
      rcases ModelCompiler.blueprint_compile hready hstep with ⟨e', hblueprint, hfailed⟩ | ⟨m, id, _, hcompiled, _⟩
      · obtain rfl : e' = .run e := Except.error.inj (hfailed.symm.trans h)
        exact Session.errorClass_blueprint (hstock ▸ hblueprint)
      · rw [hcompiled] at h
        cases h

end Trainer

end LayerStack
