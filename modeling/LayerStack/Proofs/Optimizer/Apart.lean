import LayerStack.Proofs.Scalar.Real
import LayerStack.Proofs.Optimizer.Work

/-!
# LayerStack.Proofs.Optimizer.Apart

Parameters do not hear of each other.

An optimizer in charge of many parameters does to each of them what it does to that one alone.  What calls leave of a
parameter hangs on what it hears of them, and in charge of that parameter alone the optimizer can be told just this.  What
there is at the start is the same for both (`part_start`), so it stays the same (`calls_apart`).
-/

namespace LayerStack

open NamedTensors

variable {α : Type}

/-- What a parameter hears of a call does not depend on the order of the names. -/
theorem OptimizerCall.heard_eq_of_perm {c c' : OptimizerCall α} (hperm : c.gradients.Perm c'.gradients)
    (hrate : c.rate = c'.rate) (name : String) : c.heard name = c'.heard name := by
  rw [heard, heard, hrate, gradientOf, gradientOf, Entries.lookup_eq_of_perm c.nodup hperm]

/-- Calls whose gradients are listed in other orders are heard alike. -/
theorem OptimizerCall.map_heard_eq {cs cs' : List (OptimizerCall α)}
    (h : List.Forall₂ (fun c c' => c.gradients.Perm c'.gradients ∧ c.rate = c'.rate) cs cs') (name : String) :
    cs.map (·.heard name) = cs'.map (·.heard name) := by
  induction h with
  | nil => rfl
  | cons hfirst _ ih => rw [List.map_cons, List.map_cons, heard_eq_of_perm hfirst.1 hfirst.2 name, ih]

/-- What is not there has a result of all calls. -/
theorem Part.succeeds_of_none [Scalar α] (s : OptimizerSettings) (count : Nat) (heard : List (Heard α)) :
    (⟨none, none⟩ : Part α).Succeeds s count heard := by
  induction heard generalizing count with
  | nil => trivial
  | cons first rest ih =>
      obtain ⟨rate, _ | g⟩ := first
      · exact ⟨rfl, ih _⟩
      · exact ⟨rfl, ih _⟩

namespace Work

variable [Scalar α]

/-- At the start there is a fresh slot for every parameter. -/
theorem part_start (o : Optimizer α) (parameters : NamedTensors α) (name : String) :
    (start o parameters).part name = ⟨(parameters.lookup name).map (Slot.fresh name), parameters.lookup name⟩ := by
  have hslots : (parameters.map fun p => Slot.fresh p.1 p.2).find? (·.name == name) =
      (parameters.lookup name).map (Slot.fresh name) := by
    induction parameters with
    | nil => rfl
    | cons p parameters ih =>
        obtain ⟨name', x⟩ := p
        rw [List.map_cons, List.find?_cons, List.lookup_cons]
        by_cases h : name = name'
        · subst h
          simp [Slot.fresh]
        · have hne : (name == name') = false := beq_false_of_ne h
          have hfresh : ((Slot.fresh name' x).name == name) = false := beq_false_of_ne (Ne.symm h)
          simp only [hne, hfresh]
          exact ih
  rw [Part.mk.injEq]
  exact ⟨hslots, rfl⟩

variable (o : Optimizer α) {parameters : NamedTensors α}

/-- A parameter alone starts with what there is of it among others. -/
theorem part_start_alone (hnodup : (names parameters).Nodup) {name : String} {x : AnyTensor α}
    (hmem : (name, x) ∈ parameters) : (start o [(name, x)]).part name = (start o parameters).part name := by
  rw [part_start, part_start, Entries.lookup_of_mem hnodup hmem, List.lookup_cons_self]

/-- What each parameter hears is all that matters of calls that have a result. -/
theorem part_calls_congr {parameters' : NamedTensors α} {cs cs' : List (OptimizerCall α)}
    (hsame : ∀ name, parameters.lookup name = parameters'.lookup name)
    (hheard : ∀ name, cs.map (·.heard name) = cs'.map (·.heard name)) :
    ((start o parameters).Succeeds cs ↔ (start o parameters').Succeeds cs') ∧
      ((start o parameters).Succeeds cs →
        ∀ name, ((start o parameters).calls cs).part name = ((start o parameters').calls cs').part name) := by
  have hpart (name : String) : (start o parameters).part name = (start o parameters').part name := by
    rw [part_start, part_start, hsame name]
  have hiff : (start o parameters).Succeeds cs ↔ (start o parameters').Succeeds cs' := by
    rw [succeeds_iff, succeeds_iff]
    refine forall_congr' fun name => ?_
    rw [hpart, hheard]
    rfl
  refine ⟨hiff, fun hall name => ?_⟩
  rw [part_calls hall, part_calls (hiff.mp hall), hpart, hheard]
  rfl

/-- An optimizer does to each of many parameters what it does to that one alone.  Calls all have a result where for each
parameter those have one that tell an optimizer in charge of nothing else what they have for it; and they leave of it what
those leave.  A call that fails may not come to every gradient, and then calls leave of a parameter what it heard of them.
One without a gradient of a parameter leaves that as it is, and the order of names makes no difference. -/
theorem calls_apart (hnodup : (names parameters).Nodup) (cs : List (OptimizerCall α)) :
    let joint := start o parameters
    let own (name : String) := cs.map (·.heard name)
    (joint.Succeeds cs ↔
      ∀ name x, (name, x) ∈ parameters → (start o [(name, x)]).Succeeds ((own name).map (.only name))) ∧
    (∀ name x, (name, x) ∈ parameters →
      (joint.Succeeds cs →
        (joint.calls cs).part name = ((start o [(name, x)]).calls ((own name).map (.only name))).part name) ∧
      ∃ heard, joint.Hears name cs heard ∧
        (joint.calls cs).part name = ((start o [(name, x)]).calls (heard.map (.only name))).part name) ∧
    (∀ n c name, cs[n]? = some c → gradientOf c.gradients name = none →
      (joint.calls (cs.take (n + 1))).part name = (joint.calls (cs.take n)).part name) ∧
    (∀ parameters' cs', parameters.Perm parameters' →
      List.Forall₂ (fun c c' => c.gradients.Perm c'.gradients ∧ c.rate = c'.rate) cs cs' →
      (joint.Succeeds cs ↔ (start o parameters').Succeeds cs') ∧
      (joint.Succeeds cs → ∀ name, (joint.calls cs).part name = ((start o parameters').calls cs').part name)) := by
  intro joint own
  refine ⟨?success, ?each, ?kept, ?order⟩
  case success =>
    rw [succeeds_iff]
    constructor
    · intro hall name x hmem
      rw [succeeds_only, part_start_alone o hnodup hmem]
      exact hall name
    · intro hall name
      by_cases hname : name ∈ names parameters
      · obtain ⟨⟨_, x⟩, hmem, rfl⟩ := List.mem_map.mp hname
        have halone := hall _ x hmem
        rwa [succeeds_only, part_start_alone o hnodup hmem] at halone
      · rw [part_start, Entries.lookup_eq_none hname]
        exact Part.succeeds_of_none _ _ _
  case each =>
    intro name x hmem
    obtain ⟨heard, hhears, hpart⟩ := exists_hears name joint cs
    have halone : (joint.calls cs).part name = ((start o [(name, x)]).calls (heard.map (.only name))).part name := by
      rw [hpart, part_calls_only, part_start_alone o hnodup hmem]
      rfl
    refine ⟨fun hall => ?_, heard, hhears, halone⟩
    rwa [hhears.eq_map hall] at halone
  case kept =>
    intro n c name hc hnone
    have htake : cs.take (n + 1) = cs.take n ++ [c] := by rw [List.take_add_one, hc, Option.toList_some]
    rw [htake, calls_concat]
    exact part_call_of_none hnone
  case order =>
    intro parameters' cs' hperm hcalls
    exact part_calls_congr o (fun name => Entries.lookup_eq_of_perm hnodup hperm) (OptimizerCall.map_heard_eq hcalls)

/-- Descent with momentum at two parameters: a first call for both of them, and one that knows nothing of the first. -/
theorem calls_apart_momentum :
    let settings : OptimizerSettings := ⟨.sgd (.float (.ofDecimal false 9 (-1))), .float (.ofDecimal false 1 (-2))⟩
    let w : AnyTensor ℝ := ⟨[2], #v[1, 2]⟩
    let b : AnyTensor ℝ := ⟨[], (3 : ℝ)⟩
    let g : AnyTensor ℝ := ⟨[2], #v[4, -5]⟩
    let both : OptimizerCall ℝ := ⟨[("b", some b), ("w", some g)], none, by decide⟩
    let one : OptimizerCall ℝ := ⟨[("unknown", some g), ("w", none), ("b", some b)], some (.int 1), by decide⟩
    let joint := start ⟨settings, 0, none⟩ [("w", w), ("b", b)]
    (names [("w", w), ("b", b)]).Nodup ∧ joint.Succeeds [both, one] ∧
      (joint.calls [both, one]).part "w" =
        ((start ⟨settings, 0, none⟩ [("w", w)]).calls [.only "w" (none, some g), .only "w" (some (.int 1), none)]).part
          "w" := by
  intro settings w b g both one joint
  have hnodup : (names [("w", w), ("b", b)]).Nodup := by decide
  have hall : joint.Succeeds [both, one] := ⟨rfl, rfl, trivial⟩
  obtain ⟨-, heach, -⟩ := calls_apart ⟨settings, 0, none⟩ hnodup [both, one]
  exact ⟨hnodup, hall, (heach "w" w (List.mem_cons_self ..)).1 hall⟩

end Work

end LayerStack
