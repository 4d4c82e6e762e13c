import Mathlib.Algebra.BigOperators.Field
import Mathlib.Algebra.Order.Field.Basic
import Mathlib.Tactic.FieldSimp
import Mathlib.Tactic.Linarith
import LayerStack.Loss
import LayerStack.Proofs.Operator.Transpose.Attend
import LayerStack.Proofs.Scalar.Real

/-!
# LayerStack.Proofs.Loss.Crossentropy

Crossentropy on its way back through a softmax.

The gradient of crossentropy divides by the probabilities, and the way back through a softmax multiplies by them.  Row by
row the two cancel: what is left of a target's share is its sum over the row, which is one (`dot_crossentropy`).  Where the
target is zero the quotient is zero whatever it is divided by, so only the probabilities of the other entries have to be
off the margins.  The main statement is `backward_through_softmax`.
-/

namespace LayerStack

/-- A scalar between two bounds is not moved. -/
theorem Scalar.clamp_eq_self {α : Type} [OrderedScalar α] {least greatest a : α} (hlow : least ≤ a)
    (hhigh : a ≤ greatest) : clamp least greatest a = a := by
  rw [clamp, maximum_eq_max, max_eq_left hlow, minimum]
  rcases hhigh.lt_or_eq with hlt | rfl
  · rw [if_pos hlt]
  · rw [if_neg (lt_irrefl a), if_pos le_rfl]

namespace Tensor

variable {α β γ : Type} {n : Nat} {s lead : Dims}

/-- Rows combined along the last axis, row by row. -/
theorem member_zipLast_row (f : {n : Nat} → Tensor α [n] → Tensor β [n] → Tensor γ [n]) : {lead : Dims} →
    (x : Tensor α (lead ++ [n])) → (y : Tensor β (lead ++ [n])) → (place : Place lead) →
    (x.zipLast f y).member place = f (x.member place) (y.member place)
  | [], _, _, _ => rfl
  | m :: lead, x, y, place => by
      have hrow : row (s := lead ++ [n]) (x.zipLast f y) place.1 =
          (row (s := lead ++ [n]) x place.1).zipLast f (row (s := lead ++ [n]) y place.1) := by
        cases lead <;> exact Vector.getElem_zipWith place.1.isLt
      exact (member_cons _ place).trans (by rw [hrow, member_zipLast_row f, ← member_cons, ← member_cons])

end Tensor

namespace Loss

open Tensor

variable {α : Type} [OrderedField α] {n : Nat} {lead : Dims}

/-! ## The margin -/

/-- The margin is a number above zero, and at most the decimal that it is written as. -/
theorem margin_bounds : (0 : α) < margin ∧ (margin : α) ≤ 1 / 10 ^ 7 := by
  have hbounds : ((Number.double (.ofDecimal false 1 (-7))).rational?.any fun q => 0 < q ∧ q ≤ 1 / 10 ^ 7) = true := by
    decide +kernel
  cases hq : (Number.double (.ofDecimal false 1 (-7))).rational? with
  | none => simp [hq] at hbounds
  | some q =>
      have hmargin : (margin : α) = (q : α) := OrderedField.ofNumber_exact hq
      obtain ⟨hpos, hle⟩ : 0 < q ∧ q ≤ 1 / 10 ^ 7 := by simpa [hq] using hbounds
      rw [hmargin]
      constructor
      · exact_mod_cast hpos
      · have hcast : (q : α) ≤ ((1 / 10 ^ 7 : ℚ) : α) := by exact_mod_cast hle
        simpa using hcast

/-- A probability that is off zero and one by the decimal is off them by the margin, and is taken as it is. -/
theorem clip_eq_self {p : α} (hlow : 1 / 10 ^ 7 ≤ p) (hhigh : p ≤ 1 - 1 / 10 ^ 7) : clip p = p := by
  have hmargin : (margin : α) ≤ 1 / 10 ^ 7 := margin_bounds.2
  refine Scalar.clamp_eq_self (hmargin.trans hlow) (hhigh.trans ?_)
  linarith

/-! ## A row -/

/-- The gradient of crossentropy at an entry, times the entry: the target's share is left. -/
theorem crossentropy_mul {p y rows : α} (h : y ≠ 0 → 1 / 10 ^ 7 ≤ p ∧ p ≤ 1 - 1 / 10 ^ 7) :
    -y / clip p / rows * p = -(y / rows) := by
  rcases eq_or_ne y 0 with rfl | hy
  · simp
  · obtain ⟨hlow, hhigh⟩ := h hy
    have hpos : 0 < p := lt_of_lt_of_le (by positivity) hlow
    rw [clip_eq_self hlow hhigh]
    field_simp

/-- Under the probabilities of a row the gradient has the same mean whatever the row's targets are. -/
theorem dot_crossentropy {p y : Tensor α [n]} {rows : α} (hsum : y.total = 1)
    (h : ∀ i, y.entry i ≠ 0 → 1 / 10 ^ 7 ≤ p.entry i ∧ p.entry i ≤ 1 - 1 / 10 ^ 7) :
    (zipWith (fun p t => -t / clip p / rows) p y).dot p = -(1 / rows) := by
  calc (zipWith (fun p t => -t / clip p / rows) p y).dot p
      = ∑ i, -(y.entry i / rows) := by
        rw [dot_eq_sum_entry]
        refine Finset.sum_congr rfl fun i _ => ?_
        rw [entry_zipWith, crossentropy_mul (h i)]
    _ = -((∑ i, y.entry i) / rows) := by rw [Finset.sum_neg_distrib, Finset.sum_div]
    _ = -(1 / rows) := by rw [← total_eq_sum_entry, hsum]

/-- So a row goes back to the difference of its probabilities and its targets. -/
theorem softmaxBackward_crossentropy {p y : Tensor α [n]} {rows : α} (hsum : y.total = 1)
    (h : ∀ i, y.entry i ≠ 0 → 1 / 10 ^ 7 ≤ p.entry i ∧ p.entry i ≤ 1 - 1 / 10 ^ 7) :
    softmaxBackward (zipWith (fun p t => -t / clip p / rows) p y) p = zipWith (fun p t => (p - t) / rows) p y := by
  refine ext_entry fun i => ?_
  have hentry : -y.entry i / clip (p.entry i) / rows * p.entry i = -(y.entry i / rows) := crossentropy_mul (h i)
  rw [softmaxBackward, entry_zipWith, entry_zipWith, entry_zipWith, dot_crossentropy hsum h]
  calc p.entry i * (-y.entry i / clip (p.entry i) / rows - -(1 / rows))
      = -y.entry i / clip (p.entry i) / rows * p.entry i + p.entry i / rows := by ring
    _ = (p.entry i - y.entry i) / rows := by
        rw [hentry]
        ring

/-! ## Along leading axes -/

/-- Let the targets of every row sum to one, and let the probabilities be in the range from the decimal `0.0000001` to one
less than that wherever the target is not zero.  Then the gradient of crossentropy, taken back through the softmax that
made the probabilities, is the difference of probabilities and targets over the number of rows. -/
theorem backward_through_softmax (p y : Tensor α (lead ++ [n])) (hsum : ∀ place : Place lead, (y.member place).total = 1)
    (h : ∀ (place : Place lead) i, (y.member place).entry i ≠ 0 →
      1 / 10 ^ 7 ≤ (p.member place).entry i ∧ (p.member place).entry i ≤ 1 - 1 / 10 ^ 7) :
    ((categoricalCrossentropy.backward? ⟨lead ++ [n], p⟩ ⟨lead ++ [n], y⟩).bind fun g =>
        g.zipLast? softmaxBackward ⟨lead ++ [n], p⟩) =
      some ⟨lead ++ [n], zipWith (fun p t => (p - t) / (Dims.volume lead : α)) p y⟩ := by
  have hrows : rowCount (⟨lead ++ [n], p⟩ : AnyTensor α) = Dims.volume lead := by simp [rowCount]
  have hgradient : categoricalCrossentropy.backward? ⟨lead ++ [n], p⟩ ⟨lead ++ [n], y⟩ =
      some ⟨lead ++ [n], zipWith (fun p t => -t / clip p / (Dims.volume lead : α)) p y⟩ := by
    rw [backward?, hrows]
    exact AnyTensor.zipWith?_mk _ p y
  have hback : zipLast softmaxBackward (zipWith (fun p t => -t / clip p / (Dims.volume lead : α)) p y) p =
      zipWith (fun p t => (p - t) / (Dims.volume lead : α)) p y := by
    refine ext_member fun place => ?_
    rw [member_zipLast_row, member_zipWith, member_zipWith]
    exact softmaxBackward_crossentropy (hsum place) (h place)
  rw [hgradient, Option.bind_some, AnyTensor.zipLast?_mk, hback]

/-- Two rows: one has a probability of zero where its target is zero, the target of the other is shared. -/
theorem backward_through_softmax_shared :
    let p : Tensor ℝ ([2] ++ [2]) := ofMatrix ![![0, 3 / 4], ![1 / 2, 1 / 3]]
    let y : Tensor ℝ ([2] ++ [2]) := ofMatrix ![![0, 1], ![1 / 4, 3 / 4]]
    (∀ place : Place [2], (y.member place).total = 1) ∧
      (∀ (place : Place [2]) i, (y.member place).entry i ≠ 0 →
        1 / 10 ^ 7 ≤ (p.member place).entry i ∧ (p.member place).entry i ≤ 1 - 1 / 10 ^ 7) ∧
      ((categoricalCrossentropy.backward? ⟨[2] ++ [2], p⟩ ⟨[2] ++ [2], y⟩).bind fun g =>
          g.zipLast? softmaxBackward ⟨[2] ++ [2], p⟩) =
        some ⟨[2] ++ [2], zipWith (fun p t => (p - t) / ((2 : Nat) : ℝ)) p y⟩ := by
  intro p y
  have hmember (f : Fin 2 → Fin 2 → ℝ) (x : Tensor ℝ ([2] ++ [2])) (hx : x = ofMatrix f) (place : Place [2]) (i : Fin 2) :
      (x.member place).entry i = f place.1 i := by
    rw [hx]
    exact (congrArg (entry · i) (member_cons _ place)).trans (entry_row_ofMatrix f place.1 i)
  have hsum : ∀ place : Place [2], (y.member place).total = 1 := by
    intro place
    obtain ⟨r, _⟩ := place
    rw [total_eq_sum_entry, Fin.sum_univ_two, hmember _ y rfl, hmember _ y rfl]
    fin_cases r <;> norm_num
  have hrange : ∀ (place : Place [2]) i, (y.member place).entry i ≠ 0 →
      1 / 10 ^ 7 ≤ (p.member place).entry i ∧ (p.member place).entry i ≤ 1 - 1 / 10 ^ 7 := by
    intro place i hy
    obtain ⟨r, _⟩ := place
    rw [hmember _ y rfl] at hy
    rw [hmember _ p rfl]
    fin_cases r <;> fin_cases i
    · exact absurd rfl hy
    all_goals norm_num
  exact ⟨hsum, hrange, backward_through_softmax p y hsum hrange⟩

end Loss

end LayerStack
