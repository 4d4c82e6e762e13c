import LayerStack.Proofs.Model.Run
import LayerStack.Proofs.Shape.Dropout

/-!
# LayerStack.Proofs.Model.Dropout

Inference ignores dropout.

Two models are alike if they differ at most in dropout rates and in what their last passes left (`Model.Alike`).  Designs
that differ in dropout rates alone are compiled from one random state into alike models (`alike_of_compiles`), passes
outside of training keep models alike (`Alike.predict`), and alike models predict the same (`Alike.result_predict`).  At
a rate of zero a pass in training is one outside of it (`forward_of_quiet`).  The main statement is
`inference_ignores_dropout`.
-/

namespace LayerStack

open Operator

variable {α : Type} [Scalar α]

/-! ## Chains -/

namespace Chain

variable {training : Bool}

/-- A chain whose operators draw no masks passes on, and leaves, what it does outside of training, and draws nothing. -/
theorem forward_of_quiet {os : List (Operator α)} (h : ∀ o ∈ os, o.Quiet training) (x : AnyTensor α)
    (stream stream' : Stream) : forward training os x stream = ((forward false os x stream').1, stream) := by
  induction os generalizing x stream stream' with
  | nil => rfl
  | cons o os ih =>
      obtain ⟨ho, hos⟩ := List.forall_mem_cons.mp h
      have hfirst := Operator.forward_of_quiet ho x stream stream'
      cases hresult : (o.forward false x stream').1.1 with
      | error e =>
          have hresult' : (o.forward training x stream).1.1 = .error e := by rw [hfirst, hresult]
          rw [forward_cons_of_error hresult, forward_cons_of_error hresult', hfirst]
      | ok y =>
          have hresult' : (o.forward training x stream).1.1 = .ok y := by rw [hfirst, hresult]
          rw [forward_cons_of_ok hresult, forward_cons_of_ok hresult', hfirst]
          simp only [ih hos y stream (o.forward false x stream').2]

theorem forward_inference (os : List (Operator α)) (x : AnyTensor α) (stream stream' : Stream) :
    forward false os x stream = ((forward false os x stream').1, stream) :=
  forward_of_quiet (fun o _ => o.quiet_inference) x stream stream'

/-- Outside of training a chain passes on what its bare operators do. -/
theorem result_bare (os : List (Operator α)) (x : AnyTensor α) (stream : Stream) :
    (forward false (os.map bare) x stream).1.1 = (forward false os x stream).1.1 := by
  induction os generalizing x stream with
  | nil => rfl
  | cons o os ih =>
      have hfirst := Operator.result_bare x o stream
      rw [List.map_cons]
      cases hresult : (o.forward false x stream).1.1 with
      | error e => rw [forward_cons_of_error hresult, forward_cons_of_error (hfirst.trans hresult)]
      | ok y =>
          rw [forward_cons_of_ok hresult, forward_cons_of_ok (hfirst.trans hresult)]
          simp only [forward_inference _ y (o.bare.forward false x stream).2 (o.forward false x stream).2, ih]

end Chain

namespace Model

variable {m m' : Model α} {training : Bool}

/-! ## Passes without masks -/

/-- A pass in which no operator draws masks comes to what one outside of training does, leaves the same, and draws
nothing. -/
theorem forward_of_quiet (h : ∀ o ∈ m.operators, o.Quiet training) (x : AnyTensor α) (stream stream' : Stream) :
    m.forward training x stream = ((m.predict x stream').1, stream) := by
  unfold predict forward
  cases m.live.bind fun m => prepare m.plan x with
  | error e => rfl
  | ok x' => simp only [run_bind, Chain.forward_of_quiet h x' stream stream', run_pure]

theorem predict_eq (m : Model α) (x : AnyTensor α) (stream stream' : Stream) :
    m.predict x stream = ((m.predict x stream').1, stream) :=
  forward_of_quiet (fun o _ => o.quiet_inference) x stream stream'

/-! ## Alike models -/

/-- Models that differ at most in dropout rates and in what their last passes left. -/
structure Alike (m m' : Model α) : Prop where
  plan : m.plan.Alike m'.plan
  disposed : m'.disposed = m.disposed
  operators : m'.operators.map bare = m.operators.map bare

/-- A pass outside of training leaves a model alive or not, of its plan, and with the operators that it has. -/
theorem bare_predict (m : Model α) (x : AnyTensor α) (stream : Stream) :
    (m.predict x stream).1.2.plan = m.plan ∧ (m.predict x stream).1.2.disposed = m.disposed ∧
      (m.predict x stream).1.2.operators.map bare = m.operators.map bare := by
  unfold predict forward
  cases m.live.bind fun m => prepare m.plan x with
  | error e => exact ⟨rfl, rfl, rfl⟩
  | ok x' => exact ⟨rfl, rfl, Chain.map_forward (fun o x stream => o.bare_forward false x stream) m.operators x' stream⟩

namespace Alike

theorem predict (h : m.Alike m') (x : AnyTensor α) (stream stream' : Stream) :
    (m.predict x stream).1.2.Alike (m'.predict x stream').1.2 := by
  obtain ⟨hplan, hdisposed, hoperators⟩ := m.bare_predict x stream
  obtain ⟨hplan', hdisposed', hoperators'⟩ := m'.bare_predict x stream'
  refine ⟨?_, ?_, ?_⟩
  · rw [hplan, hplan']
    exact h.plan
  · rw [hdisposed, hdisposed', h.disposed]
  · rw [hoperators, hoperators', h.operators]

/-- Alike models stay so through a common history of passes outside of training. -/
theorem after (h : m.Alike m') (xs : List (AnyTensor α)) (stream stream' : Stream) :
    (m.after (xs.map (.forward false)) stream).1.Alike (m'.after (xs.map (.forward false)) stream').1 := by
  induction xs generalizing m m' stream stream' with
  | nil => exact h
  | cons x xs ih => exact ih (h.predict x stream stream') _ _

/-- Alike models prepare a batch alike. -/
theorem prepare_eq (h : m.Alike m') (x : AnyTensor α) :
    (m'.live.bind fun m => prepare m.plan x) = m.live.bind fun m => prepare m.plan x := by
  have hprepare : prepare m'.plan x = prepare m.plan x := by
    unfold prepare ShapePlan.promoted
    rw [h.plan.declared, h.plan.input]
  unfold live
  rw [h.disposed]
  cases m.disposed with
  | true => rfl
  | false => exact hprepare

/-- Alike models predict the same. -/
theorem result_predict (h : m.Alike m') (x : AnyTensor α) (stream stream' : Stream) :
    (m'.predict x stream').1.1 = (m.predict x stream).1.1 := by
  have hresult (x' : AnyTensor α) :
      (Chain.forward false m'.operators x' stream).1.1 = (Chain.forward false m.operators x' stream).1.1 := by
    rw [← Chain.result_bare, h.operators, Chain.result_bare]
  rw [predict_eq m' x stream' stream, Model.predict, Model.predict, forward, forward, h.prepare_eq x]
  cases m.live.bind fun m => prepare m.plan x with
  | error e => rfl
  | ok x' => exact hresult x'

/-- Alike models have the same parameters. -/
theorem collect_parameters (h : m.Alike m') : m'.collect Operator.parameters = m.collect Operator.parameters := by
  have hindices : m'.plan.layers.map (·.index) = m.plan.layers.map (·.index) :=
    map_eq_of_forall₂ (fun _ _ hlayer => hlayer.index) h.plan.layers
  have hbare (os : List (Operator α)) : os.map Operator.parameters = (os.map bare).map Operator.parameters := by
    rw [List.map_map]
    exact List.map_congr_left fun o _ => (parameters_bare o).symm
  rw [collect_eq, collect_eq, hindices, hbare, h.operators, ← hbare]

end Alike

end Model

/-! ## Compiled models -/

namespace Session

/-- A session with the stock builders compiles a design into a model, and goes from one random state to another. -/
def CompilesFrom (design : Design) (before : Stream) (m : Model α) (after : Stream) : Prop :=
  ∃ (s : Session α) (id : Identity), s.builders = .stock ∧ s.stream = before ∧ (compile design s).1 = .ok id ∧
    (compile design s).2.model? id = some m ∧ (compile design s).2.stream = after

variable {layers layers' : List ResolvedLayer} {os os' : List (Operator α)} {before after after' : Stream}
  {index index' : Nat} {shape shape' : Shape}

theorem build_stock_cons {layer : ResolvedLayer} (ht : layer.type ≠ .input)
    (h : OperatorBuilders.stock.build (layer :: layers) before = (.ok os, after)) :
    ∃ o tail stream, layer.config.build layer.input before = (.ok o, stream) ∧
      OperatorBuilders.stock.build layers stream = (.ok tail, after) ∧ o :: tail = os := by
  obtain ⟨builder, o, tail, stream, hlookup, hfirst, hrest, hos⟩ := build_cons_eq_ok h
  rw [lookup_stock ht] at hlookup
  obtain rfl := Option.some.inj hlookup
  exact ⟨o, tail, stream, hfirst, hrest, hos⟩

/-- Builders of alike layers draw the same. -/
theorem buildBare_eq {layer layer' : ResolvedLayer} (hsound : ShapePlan.Sound layer) (hsound' : ShapePlan.Sound layer')
    (halike : layer.Alike layer') (hwide : layer.input.Wide) :
    (buildBare layer'.config layer'.input : Draw (Except RunError (Operator α))) =
      buildBare layer.config layer.input := by
  have hwide' : layer'.input.Wide := halike.input ▸ hwide
  rw [← buildBare_undropped hsound'.valid hwide' hsound'.makes, halike.config, halike.input,
    buildBare_undropped hsound.valid hwide hsound.makes]

/-- From one random state alike layers are built into operators that are bare the same, and leave one random state. -/
theorem bare_of_build (halike : List.Forall₂ ResolvedLayer.Alike layers layers')
    (hchained : ShapePlan.Chained index shape layers) (hchained' : ShapePlan.Chained index' shape' layers')
    (hwide : shape.Wide) (h : OperatorBuilders.stock.build layers before = (.ok os, after))
    (h' : OperatorBuilders.stock.build layers' before = (.ok os', after')) :
    os'.map bare = os.map bare ∧ after' = after := by
  induction halike generalizing index index' shape shape' before os os' with
  | nil =>
      obtain ⟨hos, rfl⟩ := Prod.mk.inj h
      obtain ⟨hos', rfl⟩ := Prod.mk.inj h'
      rw [← Except.ok.inj hos, ← Except.ok.inj hos']
      exact ⟨rfl, rfl⟩
  | @cons layer layer' layers layers' hlayer halike ih =>
      cases hchained with
      | cons _ hsound hrest =>
          cases hchained' with
          | cons _ hsound' hrest' =>
              obtain ⟨o, tail, stream, hfirst, htail, rfl⟩ := build_stock_cons hsound.type h
              obtain ⟨o', tail', stream', hfirst', htail', rfl⟩ := build_stock_cons hsound'.type h'
              have hdrawn := congrFun (buildBare_eq (α := α) hsound hsound' hlayer hwide) before
              simp only [buildBare, run_map, hfirst, hfirst'] at hdrawn
              obtain ⟨ho, rfl⟩ := Prod.mk.inj hdrawn
              have houtput := LayerConfig.wide_of_makes hsound.valid hwide hsound.makes
              obtain ⟨htails, hafter⟩ := ih hrest hrest' houtput htail htail'
              rw [List.map_cons, List.map_cons, Except.ok.inj ho, htails]
              exact ⟨rfl, hafter⟩

/-- Operators have the rates of the layers they are built for. -/
theorem rates_of_build (hchained : ShapePlan.Chained index shape layers) (hwide : shape.Wide)
    (h : OperatorBuilders.stock.build layers before = (.ok os, after)) :
    os.map Operator.rate? = layers.map fun layer => layer.config.rate?.map Scalar.ofNumber := by
  induction hchained generalizing before os with
  | nil =>
      obtain ⟨hos, _⟩ := Prod.mk.inj h
      rw [← Except.ok.inj hos]
      rfl
  | @cons index layer layers _ hsound hrest ih =>
      obtain ⟨o, tail, stream, hfirst, htail, rfl⟩ := build_stock_cons hsound.type h
      have hrate := rate?_of_build hsound.valid hwide hsound.makes (congrArg Prod.fst hfirst)
      have houtput := LayerConfig.wide_of_makes hsound.valid hwide hsound.makes
      rw [List.map_cons, List.map_cons, hrate, ih houtput htail]

end Session

namespace Model

variable {m m' : Model α}

theorem alike_of_compiles {records records' : List LayerRecord} {before after after' : Stream}
    (halike : List.Forall₂ LayerRecord.Alike records records') (h : Session.CompilesFrom (.ok records) before m after)
    (h' : Session.CompilesFrom (.ok records') before m' after') :
    m.disposed = false ∧ m.Alike m' ∧ after' = after := by
  obtain ⟨s, id, hstock, rfl, hcompile, hmodel, rfl⟩ := h
  obtain ⟨s', id', hstock', hbefore, hcompile', hmodel', rfl⟩ := h'
  obtain ⟨hplan, hbuild, halive⟩ := Session.built_of_compile hcompile hmodel
  obtain ⟨hplan', hbuild', halive'⟩ := Session.built_of_compile hcompile' hmodel'
  rw [hstock] at hbuild
  rw [hstock', hbefore] at hbuild'
  have hplans : m.plan.Alike m'.plan := ShapePlan.alike_of_ofRecords halike hplan hplan'
  obtain ⟨hopens, hchained⟩ := Session.chained_of_analysis hplan
  obtain ⟨_, hchained'⟩ := Session.chained_of_analysis hplan'
  have hwide := Shape.wide_of_positive hopens.positive_input
  obtain ⟨hbare, hafter⟩ := Session.bare_of_build hplans.layers hchained hchained' hwide hbuild hbuild'
  exact ⟨halive, ⟨hplans, halive'.trans halive.symm, hbare⟩, hafter⟩

/-- The operators of a compiled model have the rates of its plan, whatever has become of it. -/
theorem rates_after {design : Session.Design} (h : Session.Compiles design m) (moves : List (Move α)) (stream : Stream) :
    (m.after moves stream).1.operators.map Operator.rate? =
      m.plan.layers.map fun layer => layer.config.rate?.map Scalar.ofNumber := by
  have hmade := (made_of_compiles h).2
  obtain ⟨s, id, hstock, hcompile, hmodel⟩ := h
  obtain ⟨hplan, hbuild, _⟩ := Session.built_of_compile hcompile hmodel
  rw [hstock] at hbuild
  have hwide := Shape.wide_of_positive hmade.opens.positive_input
  have huntouched : Untouched (Operator.rate? : Operator α → Option α) := {
    forward := fun training o x stream => o.rate?_forward training x stream
    backward := fun o g => o.rate?_backward g
    change := fun o f => o.rate?_change f }
  rw [hmade.map_after huntouched, Session.rates_of_build hmade.chained hwide hbuild]

/-- Where no rate is above zero, a pass in training is one outside of it. -/
theorem forward_of_rates {design : Session.Design} (h : Session.Compiles design m)
    (hrates : ∀ layer ∈ m.plan.layers, ∀ rate ∈ layer.config.rate?, ¬ (0 : α) < Scalar.ofNumber rate)
    (moves : List (Move α)) (stream : Stream) (x : AnyTensor α) (stream' : Stream) :
    (m.after moves stream).1.forward true x stream' = (m.after moves stream).1.predict x stream' := by
  have hquiet : ∀ o ∈ (m.after moves stream).1.operators, o.Quiet true := by
    intro o ho rate hrate
    have hmem := List.mem_map_of_mem (f := Operator.rate?) ho
    rw [rates_after h moves stream] at hmem
    obtain ⟨layer, hlayer, hsame⟩ := List.mem_map.mp hmem
    rw [← hsame] at hrate
    obtain ⟨number, hnumber, rfl⟩ := Option.mem_map.mp hrate
    simpa [Dropout.isActive] using hrates layer hlayer number hnumber
  exact (forward_of_quiet hquiet x stream' stream').trans (predict_eq _ x stream' stream').symm

end Model

/-! ## Rates of zero -/

namespace Binary64

/-- A zero has the bits of a zero, whatever its exponent. -/
theorem toFloat_zero (negative : Bool) (exponent : Int) :
    toFloat (.finite negative 0 exponent) = Float.ofBits (UInt64.ofNat (if negative then Word.half else 0)) := by
  have hzero : 0 < hiddenBit := by decide
  simp [toFloat, hzero]

end Binary64

/-- A number whose exact value is zero is not above zero as a machine number. -/
theorem Mixed.not_pos_of_exact {rate : Number} (h : rate.rational? = some 0) : ¬ (0 : Mixed) < Scalar.ofNumber rate := by
  obtain ⟨f, hf, hzero⟩ := Option.map_eq_some_iff.mp h
  have hden : (f.2 : ℚ) ≠ 0 := by
    have hpos := Number.ratio?_pos hf
    positivity
  have hnum : f.1 = 0 := by
    rcases div_eq_zero_iff.mp hzero with hnum | hden'
    · exact_mod_cast hnum
    · contradiction
  cases rate with
  | int n =>
      obtain rfl := Option.some.inj hf
      obtain rfl : n = 0 := hnum
      decide
  | double x =>
      cases x with
      | nan | infinite => contradiction
      | finite negative mantissa exponent =>
          obtain rfl := Option.some.inj hf
          obtain rfl := Binary64.mantissa_of_fraction hnum
          change ¬ (0 : Mixed) < .literal (Binary64.toFloat (.finite negative 0 exponent))
          rw [Binary64.toFloat_zero]
          cases negative <;> decide
  | single x => contradiction

namespace Model

/-- Inference ignores dropout.  Let the records of two designs be the same but for dropout rates, each of them given or
left out, and let both designs be compiled from one random state.  The models have the same parameters and leave one
random state.  After any history of passes outside of training that they have in common they predict the same for every
batch, and draw nothing.  And of a model whose rates are all zero, whatever has become of it, a pass in training is a
prediction, and draws nothing. -/
theorem inference_ignores_dropout :
    (∀ {records records' : List LayerRecord} {before after after' : Stream} {m m' : Model Mixed},
      List.Forall₂ LayerRecord.Alike records records' → Session.CompilesFrom (.ok records) before m after →
      Session.CompilesFrom (.ok records') before m' after' →
        after' = after ∧ (∃ parameters, m.parameters = .ok parameters ∧ m'.parameters = .ok parameters) ∧
        ∀ (xs : List (AnyTensor Mixed)) (x : AnyTensor Mixed) (stream stream' : Stream),
          let later := (m.after (xs.map (.forward false)) stream).1
          let later' := (m'.after (xs.map (.forward false)) stream').1
          (later'.predict x stream').1.1 = (later.predict x stream).1.1 ∧
            (later.predict x stream).2 = stream ∧ (later'.predict x stream').2 = stream') ∧
    ∀ {design : Session.Design} {m : Model Mixed}, Session.Compiles design m →
      (∀ layer ∈ m.plan.layers, ∀ rate ∈ layer.config.rate?, rate.rational? = some 0) →
        ∀ (moves : List (Move Mixed)) (x : AnyTensor Mixed) (stream stream' : Stream),
          let later := (m.after moves stream).1
          later.forward true x stream' = later.predict x stream' ∧ (later.predict x stream').2 = stream' := by
  refine ⟨?alike, ?zero⟩
  case alike =>
    intro records records' before after after' m m' hrecords h h'
    obtain ⟨halive, halike, hafter⟩ := alike_of_compiles hrecords h h'
    have hparameters : m.parameters = .ok (m.collect Operator.parameters) := by simp [parameters, live, halive]
    have hparameters' : m'.parameters = .ok (m.collect Operator.parameters) := by
      simp [parameters, live, halive, halike.disposed, halike.collect_parameters]
    refine ⟨hafter, ⟨_, hparameters, hparameters'⟩, fun xs x stream stream' => ?_⟩
    have hlater := halike.after xs stream stream'
    have hdraws (m : Model Mixed) (stream : Stream) : (m.predict x stream).2 = stream :=
      congrArg Prod.snd (m.predict_eq x stream stream)
    exact ⟨hlater.result_predict x stream stream', hdraws _ stream, hdraws _ stream'⟩
  case zero =>
    intro design m h hzero moves x stream stream'
    have hrates : ∀ layer ∈ m.plan.layers, ∀ rate ∈ layer.config.rate?, ¬ (0 : Mixed) < Scalar.ofNumber rate :=
      fun layer hlayer rate hrate => Mixed.not_pos_of_exact (hzero layer hlayer rate hrate)
    exact ⟨forward_of_rates h hrates moves stream x stream', congrArg Prod.snd (predict_eq _ x stream' stream')⟩

/-- Sequences of two rows of four numbers. -/
def sequences : LayerRecord := .withRate .input [("shape", .list [.int 2, .int 4])] none

def blockAt (rate : Option Value) : LayerRecord :=
  .withRate .transformerBlock [("numHeads", .int 1), ("keyDim", .int 2), ("ffDim", .int 3)] rate

def droppingAt (rate : String) : LayerRecord := .withRate .dropout [] (some (.text rate))

def attentionAt (rate : Value) : LayerRecord :=
  .withRate .multiHeadAttention [("numHeads", .int 1), ("keyDim", .int 2)] (some rate)

/-- Transformer blocks at the usual rate and at one half, with dropout layers of different rates behind them, predict the
same; and self-attention at a rate of zero passes on in training what it predicts. -/
theorem inference_ignores_rates :
    (∃ (m m' : Model Mixed) (after : Stream),
      Session.CompilesFrom (.ok [sequences, blockAt none, droppingAt "0.5"]) (Stream.ofSeed 7) m after ∧
      Session.CompilesFrom (.ok [sequences, blockAt (some (.text "0.5")), droppingAt "0.25"]) (Stream.ofSeed 7) m' after ∧
      (∃ parameters, m.parameters = .ok parameters ∧ m'.parameters = .ok parameters) ∧
      ∀ (xs : List (AnyTensor Mixed)) (x : AnyTensor Mixed) (stream : Stream),
        ((m'.after (xs.map (.forward false)) stream).1.predict x stream).1.1 =
          ((m.after (xs.map (.forward false)) stream).1.predict x stream).1.1) ∧
    ∃ m : Model Mixed, Session.Compiles (.ok [sequences, attentionAt (.int 0)]) m ∧
      ∀ (x : AnyTensor Mixed) (stream : Stream), m.forward true x stream = m.predict x stream := by
  constructor
  · obtain ⟨m, after, hm⟩ : ∃ (m : Model Mixed) (after : Stream),
        Session.CompilesFrom (.ok [sequences, blockAt none, droppingAt "0.5"]) (Stream.ofSeed 7) m after :=
      ⟨_, _, Session.start 7 true, 0, rfl, rfl, rfl, rfl, rfl⟩
    obtain ⟨m', after', hm'⟩ : ∃ (m' : Model Mixed) (after' : Stream), Session.CompilesFrom
        (.ok [sequences, blockAt (some (.text "0.5")), droppingAt "0.25"]) (Stream.ofSeed 7) m' after' :=
      ⟨_, _, Session.start 7 true, 0, rfl, rfl, rfl, rfl, rfl⟩
    have hrecords : List.Forall₂ LayerRecord.Alike [sequences, blockAt none, droppingAt "0.5"]
        [sequences, blockAt (some (.text "0.5")), droppingAt "0.25"] :=
      .cons (LayerRecord.alike_withRate _ _ _ _)
        (.cons (LayerRecord.alike_withRate _ _ _ _) (.cons (LayerRecord.alike_withRate _ _ _ _) .nil))
    obtain ⟨rfl, hparameters, hpredict⟩ := inference_ignores_dropout.1 hrecords hm hm'
    exact ⟨m, m', after', hm, hm', hparameters, fun xs x stream => (hpredict xs x stream stream).1⟩
  · obtain ⟨m, hm⟩ : ∃ m : Model Mixed, Session.Compiles (.ok [sequences, attentionAt (.int 0)]) m :=
      ⟨_, Session.start 7 true, 0, rfl, rfl, rfl⟩
    have hrates : (fun plan : ShapePlan => plan.layers.map (·.config.rate?)) <$>
        Session.analysis (.ok [sequences, attentionAt (.int 0)]) = .ok [some (.int 0)] := rfl
    rw [(made_of_compiles hm).1] at hrates
    have hrates : m.plan.layers.map (·.config.rate?) = [some (.int 0)] := Except.ok.inj hrates
    have hzero : ∀ layer ∈ m.plan.layers, ∀ rate ∈ layer.config.rate?, rate.rational? = some 0 := by
      intro layer hlayer rate hrate
      have hmem := List.mem_map_of_mem (f := fun layer : ResolvedLayer => layer.config.rate?) hlayer
      rw [hrates, List.mem_singleton] at hmem
      obtain rfl := Option.some.inj (hmem.symm.trans hrate)
      simp [Number.rational?, Number.ratio?]
    exact ⟨m, hm, fun x stream => (inference_ignores_dropout.2 hm hzero [] x stream stream).1⟩

end Model

end LayerStack
