import LayerStack.Proofs.Optimizer.Part

/-!
# LayerStack.Proofs.Optimizer.Work

Optimizers at work: call after call, seen from one parameter.

An optimizer that has taken charge of parameters is called with gradients by name.  What a parameter hears of a call is its
own gradient and the rate, and what calls leave of it hangs on what it heard of them and on how many there were
(`exists_hears`).  Calls all have a result where they have one for every parameter (`succeeds_iff`); then each parameter
heard everything that was for it (`part_calls`).
-/

namespace LayerStack

open NamedTensors

variable {α : Type}

/-! ## Calls -/

/-- A call of an optimizer: gradients by name, and a rate in place of the optimizer's own. -/
structure OptimizerCall (α : Type) where
  gradients : List (String × Option (AnyTensor α))
  rate : Option Value
  nodup : (names gradients).Nodup

/-- What one parameter hears of a call: a rate and a gradient, either of which may be missing. -/
abbrev Heard (α : Type) := Option Value × Option (AnyTensor α)

namespace OptimizerCall

def heard (c : OptimizerCall α) (name : String) : Heard α := (c.rate, gradientOf c.gradients name)

/-- A call for one parameter alone. -/
def only (name : String) (heard : Heard α) : OptimizerCall α where
  gradients := [(name, heard.2)]
  rate := heard.1
  nodup := List.nodup_singleton name

theorem heard_only_of_ne {name other : String} (hne : other ≠ name) (heard : Heard α) :
    (only name heard).heard other = (heard.1, none) := by
  rw [OptimizerCall.heard, only, gradientOf_cons_of_ne hne]
  rfl

theorem heard_only (name : String) (heard : Heard α) : (only name heard).heard name = heard := by
  rw [OptimizerCall.heard, only, gradientOf_cons_self]

end OptimizerCall

namespace Part

variable [Scalar α]

/-- What calls after the first `count` ones leave of a parameter. -/
def calls (s : OptimizerSettings) : Nat → List (Heard α) → Part α → Part α
  | _, [], p => p
  | count, (rate, gradient) :: rest, p =>
    calls s (count + 1) rest (p.hear s (count + 1) (rate.getD s.learningRate) gradient).2

/-- Has a parameter a result of each of them? -/
def Succeeds (s : OptimizerSettings) : Nat → List (Heard α) → Part α → Prop
  | _, [], _ => True
  | count, (rate, gradient) :: rest, p =>
    (p.hear s (count + 1) (rate.getD s.learningRate) gradient).1 = .ok () ∧
      Succeeds s (count + 1) rest (p.hear s (count + 1) (rate.getD s.learningRate) gradient).2

end Part

namespace Optimizer

/-- An optimizer that is in charge of parameters stays so. -/
theorem isSome_slots_step [Scalar α] {o : Optimizer α} (h : o.slots.isSome)
    (gradients : List (String × Option (AnyTensor α))) (rate : Option Value) (parameters : NamedTensors α) :
    (o.step gradients rate parameters).2.2.slots.isSome := by
  obtain ⟨slots, hslots⟩ := Option.isSome_iff_exists.mp h
  rw [step, hslots]
  rfl

end Optimizer

/-- An optimizer at work on the parameters it is in charge of. -/
structure Work (α : Type) where
  optimizer : Optimizer α
  parameters : NamedTensors α
  ready : optimizer.slots.isSome

namespace Work

variable [Scalar α]

/-- An optimizer that has just taken charge of parameters. -/
def start (o : Optimizer α) (parameters : NamedTensors α) : Work α := ⟨o.reset parameters, parameters, rfl⟩

variable (w : Work α) (c : OptimizerCall α)

/-- What a call comes to. -/
def outcome : Except RunError Unit := (w.optimizer.step c.gradients c.rate w.parameters).1

/-- What a call leaves, if it fails too. -/
def call : Work α where
  optimizer := (w.optimizer.step c.gradients c.rate w.parameters).2.2
  parameters := (w.optimizer.step c.gradients c.rate w.parameters).2.1
  ready := Optimizer.isSome_slots_step w.ready _ _ _

/-- What calls leave, one after the other. -/
def calls (cs : List (OptimizerCall α)) : Work α := cs.foldl call w

/-- Has every one of the calls a result? -/
def Succeeds : Work α → List (OptimizerCall α) → Prop
  | _, [] => True
  | w, c :: cs => w.outcome c = .ok () ∧ (w.call c).Succeeds cs

/-- What there is of one parameter. -/
def part (name : String) : Part α := Holdings.part ⟨w.optimizer.slots.getD [], w.parameters⟩ name

/-! ## One call -/

theorem settings_call : (w.call c).optimizer.settings = w.optimizer.settings := by
  obtain ⟨⟨settings, count, _ | slots⟩, parameters, ready⟩ := w
  · simp at ready
  · rfl

theorem count_call : (w.call c).optimizer.count = w.optimizer.count + 1 := by
  obtain ⟨⟨settings, count, _ | slots⟩, parameters, ready⟩ := w
  · simp at ready
  · rfl

/-- What a parameter hears of a call comes to this for it. -/
def hear (heard : Heard α) (name : String) : Except RunError Unit × Part α :=
  (w.part name).hear w.optimizer.settings (w.optimizer.count + 1) (heard.1.getD w.optimizer.settings.learningRate) heard.2

/-- A call has a result where it has one for every parameter. -/
theorem outcome_eq_ok_iff : w.outcome c = .ok () ↔ ∀ name, (w.hear (c.heard name) name).1 = .ok () := by
  obtain ⟨⟨settings, count, _ | slots⟩, parameters, ready⟩ := w
  · simp at ready
  · exact Optimizer.followAll_eq_ok_iff _ _ ⟨slots, parameters⟩ c.nodup

/-- A call leaves of a parameter what its own gradient leaves, unless that of another one fails before it. -/
theorem part_call (name : String) : (w.call c).part name = (w.hear (c.heard name) name).2 ∨
    (∃ other ≠ name, (w.hear (c.heard other) other).1 ≠ .ok ()) ∧ (w.call c).part name = w.part name := by
  obtain ⟨⟨settings, count, _ | slots⟩, parameters, ready⟩ := w
  · simp at ready
  · exact Optimizer.part_followAll _ _ ⟨slots, parameters⟩ c.nodup name

variable {w c}

theorem part_call_of_ok (hok : w.outcome c = .ok ()) (name : String) :
    (w.call c).part name = (w.hear (c.heard name) name).2 := by
  rcases w.part_call c name with hpart | ⟨⟨other, _, hfails⟩, _⟩
  · exact hpart
  · exact absurd ((w.outcome_eq_ok_iff c).mp hok other) hfails

/-- A call without a gradient of a parameter leaves that as it is. -/
theorem part_call_of_none {name : String} (hnone : gradientOf c.gradients name = none) :
    (w.call c).part name = w.part name := by
  rcases w.part_call c name with hpart | ⟨_, hkept⟩
  · rw [hpart, hear, OptimizerCall.heard, hnone, Part.hear]
  · exact hkept

/-- A call for one parameter alone leaves of it what it hears. -/
theorem part_call_only (name : String) (heard : Heard α) :
    (w.call (.only name heard)).part name = (w.hear heard name).2 := by
  rcases w.part_call (.only name heard) name with hpart | ⟨⟨other, hne, hfails⟩, _⟩
  · rwa [OptimizerCall.heard_only] at hpart
  · rw [OptimizerCall.heard_only_of_ne hne] at hfails
    exact absurd rfl hfails

theorem outcome_only (name : String) (heard : Heard α) :
    w.outcome (.only name heard) = .ok () ↔ (w.hear heard name).1 = .ok () := by
  rw [outcome_eq_ok_iff]
  constructor
  · intro hall
    have hname := hall name
    rwa [OptimizerCall.heard_only] at hname
  · intro hname other
    by_cases hother : other = name
    · subst hother
      rwa [OptimizerCall.heard_only]
    · rw [OptimizerCall.heard_only_of_ne hother]
      rfl

/-! ## Many calls -/

variable {cs : List (OptimizerCall α)} {name : String}

theorem calls_cons (w : Work α) (c : OptimizerCall α) (cs : List (OptimizerCall α)) :
    w.calls (c :: cs) = (w.call c).calls cs := rfl

theorem calls_concat (w : Work α) (cs : List (OptimizerCall α)) (c : OptimizerCall α) :
    w.calls (cs ++ [c]) = (w.calls cs).call c := List.foldl_concat ..

theorem succeeds_concat (w : Work α) (cs : List (OptimizerCall α)) (c : OptimizerCall α) :
    w.Succeeds (cs ++ [c]) ↔ w.Succeeds cs ∧ (w.calls cs).outcome c = .ok () := by
  induction cs generalizing w with
  | nil => exact and_comm
  | cons first cs ih => rw [List.cons_append, Succeeds, Succeeds, ih, calls_cons, and_assoc]

theorem settings_calls : (w.calls cs).optimizer.settings = w.optimizer.settings := by
  induction cs generalizing w with
  | nil => rfl
  | cons c cs ih => rw [calls_cons, ih, settings_call]

theorem count_calls : (w.calls cs).optimizer.count = w.optimizer.count + cs.length := by
  induction cs generalizing w with
  | nil => rfl
  | cons c cs ih =>
      rw [calls_cons, ih, count_call, List.length_cons]
      omega

/-- What a parameter hears of calls: everything that is for it, but that a call which fails may not come to its gradient. -/
def Hears (name : String) : Work α → List (OptimizerCall α) → List (Heard α) → Prop
  | _, [], heard => heard = []
  | w, c :: cs, heard => ∃ first rest, heard = first :: rest ∧
      (first = c.heard name ∨ w.outcome c ≠ .ok () ∧ first = (c.rate, none)) ∧ Hears name (w.call c) cs rest

/-- What calls leave of a parameter hangs on what it hears of them, and on nothing else. -/
theorem exists_hears (name : String) (w : Work α) (cs : List (OptimizerCall α)) : ∃ heard, w.Hears name cs heard ∧
    (w.calls cs).part name = (w.part name).calls w.optimizer.settings w.optimizer.count heard := by
  induction cs generalizing w with
  | nil => exact ⟨[], rfl, rfl⟩
  | cons c cs ih =>
      obtain ⟨rest, hrest, hpart⟩ := ih (w.call c)
      rw [settings_call, count_call] at hpart
      rcases w.part_call c name with hown | ⟨⟨other, _, hfails⟩, hkept⟩
      · refine ⟨c.heard name :: rest, ⟨_, rest, rfl, .inl rfl, hrest⟩, ?_⟩
        rw [calls_cons, hpart, hown]
        rfl
      · have hoc : w.outcome c ≠ .ok () := fun hok => hfails ((w.outcome_eq_ok_iff c).mp hok other)
        refine ⟨(c.rate, none) :: rest, ⟨_, rest, rfl, .inr ⟨hoc, rfl⟩, hrest⟩, ?_⟩
        rw [calls_cons, hpart, hkept]
        rfl

/-- Of calls that all have a result a parameter hears everything that is for it. -/
theorem Hears.eq_map {heard : List (Heard α)} (hall : w.Succeeds cs) (h : w.Hears name cs heard) :
    heard = cs.map (·.heard name) := by
  induction cs generalizing w heard with
  | nil => exact h
  | cons c cs ih =>
      obtain ⟨first, rest, rfl, hfirst | ⟨hfails, _⟩, hrest⟩ := h
      · rw [hfirst, ih hall.2 hrest, List.map_cons]
      · exact absurd hall.1 hfails

theorem part_calls (hall : w.Succeeds cs) (name : String) : (w.calls cs).part name =
    (w.part name).calls w.optimizer.settings w.optimizer.count (cs.map (·.heard name)) := by
  obtain ⟨heard, hhears, hpart⟩ := exists_hears name w cs
  rw [hpart, hhears.eq_map hall]

/-- Calls all have a result where they have one for every parameter. -/
theorem succeeds_iff : w.Succeeds cs ↔
    ∀ name, (w.part name).Succeeds w.optimizer.settings w.optimizer.count (cs.map (·.heard name)) := by
  induction cs generalizing w with
  | nil => exact ⟨fun _ _ => trivial, fun _ => trivial⟩
  | cons c cs ih =>
      constructor
      · rintro ⟨hok, hrest⟩ name
        refine ⟨(w.outcome_eq_ok_iff c).mp hok name, ?_⟩
        have hname := ih.mp hrest name
        rwa [settings_call, count_call, part_call_of_ok hok] at hname
      · intro hall
        have hok : w.outcome c = .ok () := (w.outcome_eq_ok_iff c).mpr fun name => (hall name).1
        refine ⟨hok, ih.mpr fun name => ?_⟩
        rw [settings_call, count_call, part_call_of_ok hok]
        exact (hall name).2

/-- Calls for one parameter alone leave of it what it hears. -/
theorem part_calls_only (heard : List (Heard α)) : (w.calls (heard.map (.only name))).part name =
    (w.part name).calls w.optimizer.settings w.optimizer.count heard := by
  induction heard generalizing w with
  | nil => rfl
  | cons first rest ih =>
      rw [List.map_cons, calls_cons, ih, settings_call, count_call, part_call_only]
      rfl

theorem succeeds_only (heard : List (Heard α)) : w.Succeeds (heard.map (.only name)) ↔
    (w.part name).Succeeds w.optimizer.settings w.optimizer.count heard := by
  induction heard generalizing w with
  | nil => exact Iff.rfl
  | cons first rest ih =>
      refine and_congr (outcome_only name first) ?_
      rw [ih, settings_call, count_call, part_call_only]
      rfl

end Work

end LayerStack
