import Mathlib.Algebra.Order.BigOperators.Group.Finset
import Mathlib.Data.Finset.Lattice.Fold
import Mathlib.Algebra.BigOperators.Intervals
import Mathlib.Order.Interval.Finset.Nat
import LayerStack.Proofs.Optimizer.Apart
import LayerStack.Proofs.Optimizer.Setting

/-!
# LayerStack.Proofs.Optimizer.Average

The moments of Adam are averages of gradients.

A moment that starts at zero is a sum of the gradients in which each counts the less the longer ago it was, and what all of
them count makes one less the power of the decay by their number (`one_sub_mul_sum_pow`).  Divided by that the moment is an
average: it lies between the least and the greatest of what it is made of.
-/

namespace LayerStack

open NamedTensors Finset

/-! ## Sums of what is the longer ago the less -/

section Decay

variable {𝕜 : Type} [Field 𝕜] {b : 𝕜} {f : Nat → 𝕜} {t : Nat}

/-- A further term makes every one before it count less. -/
theorem sum_decay_succ (b : 𝕜) (f : Nat → 𝕜) (t : Nat) :
    ∑ i ∈ Icc 1 (t + 1), b ^ (t + 1 - i) * f i = b * ∑ i ∈ Icc 1 t, b ^ (t - i) * f i + f (t + 1) := by
  rw [sum_Icc_succ_top (Nat.le_add_left 1 t), Nat.sub_self, pow_zero, one_mul, mul_sum]
  congr 1
  refine sum_congr rfl fun i hi => ?_
  rw [Nat.succ_sub (mem_Icc.mp hi).2, pow_succ', mul_assoc]

/-- What the terms count makes one less the power of the decay. -/
theorem one_sub_mul_sum_pow (b : 𝕜) (t : Nat) : (1 - b) * ∑ i ∈ Icc 1 t, b ^ (t - i) = 1 - b ^ t := by
  induction t with
  | zero => simp
  | succ t ih =>
      have hsucc := sum_decay_succ b (fun _ => 1) t
      simp only [mul_one] at hsucc
      rw [hsucc, mul_add, mul_left_comm, ih, pow_succ']
      ring

variable [LinearOrder 𝕜] [IsStrictOrderedRing 𝕜]

theorem one_sub_pow_pos (hlow : 0 ≤ b) (hhigh : b < 1) (ht : 0 < t) : 0 < 1 - b ^ t :=
  sub_pos.mpr (pow_lt_one₀ hlow hhigh ht.ne')

/-- So it is an average of the terms: at most a number that none of them is above. -/
theorem average_le (hlow : 0 ≤ b) (hhigh : b < 1) (ht : 0 < t) {c : 𝕜} (hf : ∀ i ∈ Icc 1 t, f i ≤ c) :
    (1 - b) * (∑ i ∈ Icc 1 t, b ^ (t - i) * f i) / (1 - b ^ t) ≤ c := by
  rw [div_le_iff₀ (one_sub_pow_pos hlow hhigh ht)]
  calc (1 - b) * ∑ i ∈ Icc 1 t, b ^ (t - i) * f i
      ≤ (1 - b) * ∑ i ∈ Icc 1 t, b ^ (t - i) * c := by
        refine mul_le_mul_of_nonneg_left (sum_le_sum fun i hi => ?_) (sub_nonneg.mpr hhigh.le)
        exact mul_le_mul_of_nonneg_left (hf i hi) (pow_nonneg hlow _)
    _ = c * (1 - b ^ t) := by rw [← sum_mul, ← mul_assoc, one_sub_mul_sum_pow, mul_comm]

/-- And at least one that none of them is below. -/
theorem le_average (hlow : 0 ≤ b) (hhigh : b < 1) (ht : 0 < t) {c : 𝕜} (hf : ∀ i ∈ Icc 1 t, c ≤ f i) :
    c ≤ (1 - b) * (∑ i ∈ Icc 1 t, b ^ (t - i) * f i) / (1 - b ^ t) := by
  have hneg := average_le (f := fun i => -f i) hlow hhigh ht fun i hi => neg_le_neg (hf i hi)
  simp only [mul_neg, sum_neg_distrib, neg_div] at hneg
  exact neg_le_neg_iff.mp hneg

/-- Terms that are all the same make just that. -/
theorem average_const (hlow : 0 ≤ b) (hhigh : b < 1) (ht : 0 < t) {c : 𝕜} (hf : ∀ i ∈ Icc 1 t, f i = c) :
    (1 - b) * (∑ i ∈ Icc 1 t, b ^ (t - i) * f i) / (1 - b ^ t) = c :=
  le_antisymm (average_le hlow hhigh ht fun i hi => (hf i hi).le) (le_average hlow hhigh ht fun i hi => (hf i hi).ge)

end Decay

/-! ## One gradient -/

namespace Moments

/-- The sums of terms and of their squares that gradients leave. -/
noncomputable def ofTerms (b1 b2 : ℝ) (term : Nat → ℝ) (t : Nat) : Moments ℝ :=
  ⟨(1 - b1) * ∑ i ∈ Icc 1 t, b1 ^ (t - i) * term i, (1 - b2) * ∑ i ∈ Icc 1 t, b2 ^ (t - i) * term i ^ 2⟩

/-- A further gradient makes them those of one more. -/
theorem ofTerms_succ (b1 b2 : ℝ) (term : Nat → ℝ) (t : Nat) (e d : ℝ) (powers : ℝ × ℝ) (r : ℝ) :
    Pace.moments ⟨.adam b1 b2 e d, powers, r⟩ (term (t + 1)) (ofTerms b1 b2 term t) = ofTerms b1 b2 term (t + 1) := by
  simp only [Pace.moments, UpdateRule.moments, Scalar.square, ofTerms, sum_decay_succ, mk.injEq]
  constructor <;> ring

end Moments

namespace Slot

variable {α : Type} [Scalar α] (slot : Slot α) (paces : Tensor (Pace α) slot.dims) (gradient x : Tensor α slot.dims)
  (p : Place slot.dims)

theorem pick_moments_step : (slot.step paces gradient x).1.moments.pick p =
    (paces.pick p).moments (gradient.pick p) (slot.moments.pick p) := by
  simp [step, Tensor.zip]

theorem pick_step : (slot.step paces gradient x).2.pick p =
    (paces.pick p).move (gradient.pick p) ((slot.step paces gradient x).1.moments.pick p) (x.pick p) := by
  simp [step, Tensor.zip]

end Slot

namespace Part

variable {o : OptimizerSettings} {beta1 beta2 epsilon weightDecay rate : Value} {b1 b2 : ℝ} {count : Nat} {s : Dims}
  {name : String} {gradient : AnyTensor ℝ} {g : Tensor ℝ s} {moments : Tensor (Moments ℝ) s} {y : Tensor ℝ s}

theorem as?_mk (y : Tensor ℝ s) : AnyTensor.as? ⟨s, y⟩ s = some y := dif_pos rfl

/-- A gradient that fits a parameter is followed, if the settings are plain. -/
theorem follow_eq_ok (name : String) (moments : Tensor (Moments ℝ) s) (y : Tensor ℝ s) (h : o.IsPlainAdam)
    (hrate : Setting.IsPlain rate) (hcount : 0 < count) (hg : gradient.spread? s = some g) : ∃ moments' y',
      Part.follow o count rate gradient ⟨some ⟨name, s, moments⟩, some ⟨s, y⟩⟩ =
        (.ok (), ⟨some ⟨name, s, moments'⟩, some ⟨s, y'⟩⟩) := by
  obtain ⟨beta1, beta2, epsilon, weightDecay, hrule, _⟩ := h.exists_adam
  have hdefined : o.rule.isDefined = true := by rw [hrule]; rfl
  obtain ⟨paces, hpaces⟩ := Option.isSome_iff_exists.mp (o.isSome_paces? h hrate hcount s)
  simp only [follow, hdefined, o.areNumeric_of_isPlainAdam h hrate, hg, as?_mk, hpaces, Setting.isWords_eq_false,
    o.number_ofSettings h hrate hcount, if_true]
  exact ⟨_, _, rfl⟩

/-- Where a gradient is followed by Adam, every number goes its own way. -/
theorem follow_adam (hrule : o.rule = .adam beta1 beta2 epsilon weightDecay) (h1 : Setting.IsDecay beta1 b1)
    (h2 : Setting.IsDecay beta2 b2) (hcount : 0 < count) (hg : gradient.spread? s = some g)
    (hok : (Part.follow o count rate gradient ⟨some ⟨name, s, moments⟩, some ⟨s, y⟩⟩).1 = .ok ()) :
    ∃ moments' y',
      (Part.follow o count rate gradient ⟨some ⟨name, s, moments⟩, some ⟨s, y⟩⟩).2 =
        ⟨some ⟨name, s, moments'⟩, some ⟨s, y'⟩⟩ ∧
      ∀ p, ∃ e w r, let pace : Pace ℝ := ⟨.adam b1 b2 e w, (b1 ^ count, b2 ^ count), r⟩
        moments'.pick p = pace.moments (g.pick p) (moments.pick p) ∧
          y'.pick p = pace.move (g.pick p) (moments'.pick p) (y.pick p) := by
  have hdefined : o.rule.isDefined = true := by rw [hrule]; rfl
  simp only [follow, hdefined, hg, as?_mk, if_true] at hok ⊢
  split at hok
  case isFalse => simp at hok
  case isTrue hnumeric =>
    rcases hpaces : o.paces? rate count s with _ | paces
    · simp [hpaces] at hok
    · simp only [hpaces] at hok
      split at hok
      case isFalse => simp at hok
      case isTrue hreach =>
        simp only [hnumeric, hreach, if_true]
        refine ⟨_, _, rfl, fun p => ?_⟩
        obtain ⟨e, w, r, hpick⟩ := o.pick_paces?_adam hrule h1 h2 hcount hpaces p
        have hmoments := Slot.pick_moments_step ⟨name, s, moments⟩ paces g y p
        have hmoved := Slot.pick_step ⟨name, s, moments⟩ paces g y p
        rw [hpick] at hmoments hmoved
        exact ⟨e, w, r, hmoments, hmoved⟩

/-- Calls with plain rates and with gradients that fit all have a result. -/
theorem succeeds_of_fits (h : o.IsPlainAdam) (heard : List (Heard ℝ))
    (hrate : ∀ first ∈ heard, Setting.IsPlain (first.1.getD o.learningRate))
    (hfits : ∀ first ∈ heard, ∀ g ∈ first.2, (g.spread? s).isSome) (count : Nat) (moments : Tensor (Moments ℝ) s)
    (y : Tensor ℝ s) : Part.Succeeds o count heard ⟨some ⟨name, s, moments⟩, some ⟨s, y⟩⟩ := by
  induction heard generalizing count moments y with
  | nil => trivial
  | cons first rest ih =>
      have hrest := ih (fun f hf => hrate f (List.mem_cons_of_mem _ hf)) fun f hf => hfits f (List.mem_cons_of_mem _ hf)
      have hfirst := hrate first List.mem_cons_self
      have hgradient := hfits first List.mem_cons_self
      obtain ⟨rate, _ | g⟩ := first
      · exact ⟨rfl, hrest ..⟩
      · obtain ⟨g', hg⟩ := Option.isSome_iff_exists.mp (hgradient g rfl)
        obtain ⟨moments', y', hfollow⟩ := follow_eq_ok name moments y h hfirst (Nat.succ_pos count) hg
        rw [Part.Succeeds, hear, hfollow]
        exact ⟨rfl, hrest ..⟩

end Part

/-! ## Calls -/

/-- Are the gradients of a call such that they can be repeated to fit their parameters? -/
def OptimizerCall.Fits (c : OptimizerCall ℝ) (parameters : NamedTensors ℝ) : Prop :=
  ∀ name x g, parameters.lookup name = some x → gradientOf c.gradients name = some g → (g.spread? x.dims).isSome

/-- What is among the first calls is among all of them. -/
theorem getElem?_concat {α : Type} {l : List α} {i : Nat} {a b : α} (h : l[i]? = some a) : (l ++ [b])[i]? = some a := by
  rw [List.getElem?_append_left (List.getElem?_eq_some_iff.mp h).1, h]

namespace Work

variable {o : Optimizer ℝ} {beta1 beta2 epsilon weightDecay : Value} {b1 b2 : ℝ} {parameters : NamedTensors ℝ}
  {name : String} {x : AnyTensor ℝ} {cs : List (OptimizerCall ℝ)}

theorem succeeds_of_fits (h : o.settings.IsPlainAdam)
    (hrate : ∀ c ∈ cs, Setting.IsPlain (c.rate.getD o.settings.learningRate)) (hfits : ∀ c ∈ cs, c.Fits parameters) :
    (start o parameters).Succeeds cs := by
  rw [succeeds_iff]
  intro name
  rw [part_start]
  cases hlookup : parameters.lookup name with
  | none => exact Part.succeeds_of_none ..
  | some x =>
      refine Part.succeeds_of_fits h _ (fun first hfirst => ?_) (fun first hfirst g hg => ?_) _ _ _
      · obtain ⟨c, hc, rfl⟩ := List.mem_map.mp hfirst
        exact hrate c hc
      · obtain ⟨c, hc, rfl⟩ := List.mem_map.mp hfirst
        exact hfits c hc name x g hlookup hg

theorem count_start_calls : ((start o parameters).calls cs).optimizer.count = cs.length :=
  count_calls.trans (Nat.zero_add _)

section Steps

variable (hrule : o.settings.rule = .adam beta1 beta2 epsilon weightDecay) (h1 : Setting.IsDecay beta1 b1)
  (h2 : Setting.IsDecay beta2 b2) {g : Nat → Tensor ℝ x.dims}

include hrule h1 h2

/-- What one more call leaves of a parameter: its moments, and what they made of it. -/
theorem part_concat_adam {c : OptimizerCall ℝ} {moments : Tensor (Moments ℝ) x.dims} {y : Tensor ℝ x.dims}
    (hpart : ((start o parameters).calls cs).part name = ⟨some ⟨name, x.dims, moments⟩, some ⟨x.dims, y⟩⟩)
    (hmoments : ∀ p, moments.pick p = Moments.ofTerms b1 b2 (fun i => (g i).pick p) cs.length)
    (hok : ((start o parameters).calls cs).outcome c = .ok ())
    (hg : (gradientOf c.gradients name).bind (·.spread? x.dims) = some (g (cs.length + 1))) :
    ∃ moments' y', ((start o parameters).calls (cs ++ [c])).part name =
        ⟨some ⟨name, x.dims, moments'⟩, some ⟨x.dims, y'⟩⟩ ∧
      ∀ p, moments'.pick p = Moments.ofTerms b1 b2 (fun i => (g i).pick p) (cs.length + 1) ∧
        ∃ e d r, y'.pick p =
          Pace.move ⟨.adam b1 b2 e d, (b1 ^ (cs.length + 1), b2 ^ (cs.length + 1)), r⟩ ((g (cs.length + 1)).pick p)
            (moments'.pick p) (y.pick p) := by
  obtain ⟨gradient, hgradient, hspread⟩ := Option.bind_eq_some_iff.mp hg
  have hsettings : ((start o parameters).calls cs).optimizer.settings = o.settings := settings_calls
  have hown := (outcome_eq_ok_iff _ c).mp hok name
  rw [hear, hpart, OptimizerCall.heard, hgradient, hsettings, count_start_calls] at hown
  obtain ⟨moments', y', hleft, hnumbers⟩ := Part.follow_adam hrule h1 h2 (Nat.succ_pos _) hspread hown
  refine ⟨moments', y', ?_, fun p => ?_⟩
  · rw [calls_concat, part_call_of_ok hok, hear, hpart, OptimizerCall.heard, hgradient, hsettings, count_start_calls]
    exact hleft
  · obtain ⟨e, d, r, hmoment, hmoved⟩ := hnumbers p
    refine ⟨?_, e, d, r, hmoved⟩
    rw [hmoment, hmoments]
    exact Moments.ofTerms_succ b1 b2 (fun i => (g i).pick p) ..

/-- The moments after calls with gradients are sums of those and of their squares. -/
theorem part_calls_adam (hlookup : parameters.lookup name = some x) (hall : (start o parameters).Succeeds cs)
    (hg : ∀ i c, cs[i]? = some c → (gradientOf c.gradients name).bind (·.spread? x.dims) = some (g (i + 1))) :
    ∃ moments y, ((start o parameters).calls cs).part name = ⟨some ⟨name, x.dims, moments⟩, some ⟨x.dims, y⟩⟩ ∧
      ∀ p, moments.pick p = Moments.ofTerms b1 b2 (fun i => (g i).pick p) cs.length := by
  induction cs using List.reverseRecOn with
  | nil =>
      refine ⟨Tensor.fill ⟨0, 0⟩ x.dims, x.value, ?_, fun p => by simp [Moments.ofTerms]⟩
      exact (part_start o parameters name).trans (by rw [hlookup]; rfl)
  | append_singleton cs c ih =>
      obtain ⟨hbefore, hok⟩ := (succeeds_concat ..).mp hall
      obtain ⟨moments, y, hpart, hmoments⟩ := ih hbefore fun i c' hc' => hg i c' (getElem?_concat hc')
      obtain ⟨moments', y', hpart', hnumbers⟩ :=
        part_concat_adam hrule h1 h2 hpart hmoments hok (hg cs.length c (by simp))
      refine ⟨moments', y', hpart', fun p => ?_⟩
      rw [(hnumbers p).1, List.length_append, List.length_singleton]

end Steps

/-- A moment freed of the bias towards zero lies between the least and the greatest of the terms, and is the term where
all are the same. -/
theorem corrected_between {b : ℝ} {f : Nat → ℝ} {t : Nat} (hlow : 0 ≤ b) (hhigh : b < 1) (ht : 1 ≤ t) :
    let corrected := UpdateRule.corrected (b ^ t) ((1 - b) * ∑ i ∈ Icc 1 t, b ^ (t - i) * f i)
    (Icc 1 t).inf' (nonempty_Icc.mpr ht) f ≤ corrected ∧ corrected ≤ (Icc 1 t).sup' (nonempty_Icc.mpr ht) f ∧
      ∀ c, (∀ i ∈ Icc 1 t, f i = c) → corrected = c :=
  ⟨le_average hlow hhigh ht fun _ hi => inf'_le f hi, average_le hlow hhigh ht fun _ hi => le_sup' f hi,
    fun _ hf => average_const hlow hhigh ht hf⟩

end Work

end LayerStack
