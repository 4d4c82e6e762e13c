import Mathlib.Analysis.Convex.Combination
import LayerStack.Proofs.Operator.Permuted
import LayerStack.Proofs.Operator.Transpose.Attend
import LayerStack.Proofs.Scalar.Real

/-!
# LayerStack.Proofs.Operator.Averages

Attention averages values.

With any positive function for the exponential, the softmax of a row of scores is a row of positive weights that sum to
one (`softmax_pos`, `sum_softmax`).  Scores that are all larger by one number have a peak that is larger by it, so they
have the same weights (`softmax_shift`); and if the exponential turns sums into products, the peak cancels
(`entry_softmax_of_exp_add`).  Attention runs over matrices at every place along leading axes (`weigh?_append`), so what
it answers lies between the least and the greatest of the values that it weighs (`attend_averages`).
-/

namespace LayerStack

open Tensor

/-! ## Softmax -/

namespace Tensor

variable {α β : Type} {a n : Nat}

/-- Rows changed along the last axis, place by place. -/
@[simp] theorem member_mapLast (f : {n : Nat} → Tensor α [n] → Tensor β [n]) : {lead : Dims} →
    (x : Tensor α (lead ++ [a, n])) → (p : Place lead) → (x.mapLast f).member p = (x.member p).mapRows f
  | [], _, _ => rfl
  | m :: lead, x, p => by
      have hrow : row (s := lead ++ [a, n]) (x.mapLast f) p.1 = (row (s := lead ++ [a, n]) x p.1).mapLast f := by
        cases lead <;> exact Vector.getElem_map _ p.1.isLt
      exact (member_cons _ p).trans (by rw [hrow, member_mapLast f, ← member_cons])

variable [OrderedField α]

theorem sum_exp_pos (hexp : ∀ a : α, 0 < Elementary.exp a) (hn : 0 < n) (e : Fin n → α) :
    0 < ∑ i, Elementary.exp (e i) :=
  Finset.sum_pos (fun i _ => hexp (e i)) ⟨⟨0, hn⟩, Finset.mem_univ _⟩

theorem softmax_pos (hexp : ∀ a : α, 0 < Elementary.exp a) (x : Tensor α [n]) (i : Fin n) : 0 < x.softmax.entry i := by
  rw [entry_softmax]
  exact div_pos (hexp _) (sum_exp_pos hexp i.pos _)

theorem sum_softmax (hexp : ∀ a : α, 0 < Elementary.exp a) (hn : 0 < n) (x : Tensor α [n]) :
    ∑ i, x.softmax.entry i = 1 := by
  simp only [entry_softmax]
  rw [← Finset.sum_div, div_self (sum_exp_pos hexp hn _).ne']

/-- The peak moves with the scores. -/
theorem peak_shift (c : α) {x y : Tensor α [n + 1]} (h : ∀ i, y.entry i = x.entry i + c) : y.peak = x.peak + c :=
  eq_of_forall_ge_iff fun b => by simp only [peak_le_iff, h, ← le_sub_iff_add_le]

/-- Weights hang on how far scores are apart only. -/
theorem softmax_shift (c : α) : {n : Nat} → {x y : Tensor α [n]} → (∀ i, y.entry i = x.entry i + c) →
    y.softmax = x.softmax
  | 0, _, _, _ => ext_entry fun i => i.elim0
  | n + 1, x, y, h => ext_entry fun i => by
      have hapart (j : Fin (n + 1)) : y.entry j - y.peak = x.entry j - x.peak := by
        rw [h j, peak_shift c h, add_sub_add_right_eq_sub]
      simp only [entry_softmax, hapart]

/-- With an exponential of sums the peak cancels. -/
theorem entry_softmax_of_exp_add (hexp : ∀ a : α, 0 < Elementary.exp a)
    (hadd : ∀ a b : α, Elementary.exp (a + b) = Elementary.exp a * Elementary.exp b) (x : Tensor α [n]) (i : Fin n) :
    x.softmax.entry i = Elementary.exp (x.entry i) / ∑ j, Elementary.exp (x.entry j) := by
  have hpeak (j : Fin n) : Elementary.exp (x.entry j - x.peak) = Elementary.exp (x.entry j) * Elementary.exp (-x.peak) := by
    rw [sub_eq_add_neg, hadd]
  simp only [entry_softmax, hpeak, ← Finset.sum_mul]
  exact mul_div_mul_right _ _ (hexp _).ne'

end Tensor

/-! ## Attention -/

namespace Attention

variable {α : Type} {q k d v : Nat} {lead : Dims}

section Passes

variable [Scalar α]

/-- The scores of queries against keys. -/
def scores? (query key : AnyTensor α) : Option (AnyTensor α) := do
  return (← query.product? (← key.transpose?)).map (· / root query.lastAxis)

/-- What attention makes of scores. -/
def weigh? (scores value : AnyTensor α) (mask : Option (AnyTensor α)) : Option (AnyTensor α × AnyTensor α) := do
  let weights := scores.mapLast Tensor.softmax
  return (← (← masked? weights mask).product? value, weights)

/-- Attention looks at queries and keys through their scores. -/
theorem attend?_eq_weigh? (query key value : AnyTensor α) (mask : Option (AnyTensor α)) :
    attend? query key value mask = (scores? query key).bind fun scores => weigh? scores value mask := by
  cases htranspose : key.transpose? with
  | none => simp [attend?, weights?, scores?, htranspose]
  | some transposed =>
      cases hproduct : query.product? transposed with
      | none => simp [attend?, weights?, scores?, htranspose, hproduct]
      | some product => simp [attend?, weights?, scores?, weigh?, htranspose, hproduct]

/-- The scores at all places. -/
def allScores (query : Tensor α (lead ++ [q, d])) (key : Tensor α (lead ++ [k, d])) : Tensor α (lead ++ [q, k]) :=
  (query.products key.transposed).map (· / root d)

theorem member_allScores (query : Tensor α (lead ++ [q, d])) (key : Tensor α (lead ++ [k, d])) (p : Place lead) :
    (allScores query key).member p = scores (root d) (query.member p) (key.member p) := by
  rw [allScores, member_map, member_products, member_transposed, scores]

theorem scores?_append (query : Tensor α (lead ++ [q, d])) (key : Tensor α (lead ++ [k, d])) :
    scores? ⟨_, query⟩ ⟨_, key⟩ = some ⟨_, allScores query key⟩ := by
  have hlast : AnyTensor.lastAxis ⟨lead ++ [q, d], query⟩ = d := by simp [AnyTensor.lastAxis]
  simp only [scores?, AnyTensor.transpose?_append, AnyTensor.product?_append, AnyTensor.map, Option.bind_eq_bind,
    Option.bind_some, hlast]
  rfl

/-- Attention runs over the matrices at all places. -/
theorem weigh?_append (scores : Tensor α (lead ++ [q, k])) (value : Tensor α (lead ++ [k, v]))
    (mask : Option (Tensor α (lead ++ [q, k]))) :
    weigh? ⟨_, scores⟩ ⟨_, value⟩ (mask.map (AnyTensor.mk _)) =
      some (⟨_, (Dropout.masked (scores.mapLast softmax) mask).products value⟩, ⟨_, scores.mapLast softmax⟩) := by
  simp only [weigh?, AnyTensor.mapLast, masked?_mk, AnyTensor.product?_append, Option.bind_eq_bind, Option.bind_some]
  rfl

end Passes

/-- Values under no weight at all. -/
theorem products_zeros [CommRing α] (x : Tensor α (lead ++ [q, k])) (value : Tensor α (lead ++ [k, v])) :
    (Dropout.masked x (some (zeros (lead ++ [q, k])))).products value = zeros (lead ++ [q, v]) :=
  ext_member fun p => ext_matrix fun i c => by
    rw [member_products, Dropout.masked, member_zipWith, entry_product, member_zeros, member_zeros]
    simp

variable [OrderedField α]

/-- Scores that are larger by one number along each row weigh the same. -/
theorem mapLast_softmax_shift {S S' : Tensor α (lead ++ [q, k])} (shift : Place lead → Fin q → α)
    (h : ∀ p i j, ((S'.member p).row i).entry j = ((S.member p).row i).entry j + shift p i) :
    S'.mapLast softmax = S.mapLast softmax :=
  ext_member fun p => ext_row fun i => by
    rw [member_mapLast, member_mapLast, row_mapRows, row_mapRows, softmax_shift (shift p i) (h p i)]

/-- An average under positive weights lies between the least and the greatest of what it is made of. -/
theorem product_between {w : Tensor α [q, k]} (value : Tensor α [k, v]) (hk : (Finset.univ : Finset (Fin k)).Nonempty)
    {i : Fin q} (hpos : ∀ j, 0 ≤ (w.row i).entry j) (hsum : ∑ j, (w.row i).entry j = 1) (c : Fin v) :
    (Finset.univ.inf' hk fun j => (value.row j).entry c) ≤ ((w.product value).row i).entry c ∧
      ((w.product value).row i).entry c ≤ Finset.univ.sup' hk fun j => (value.row j).entry c := by
  have hmass : ((w.product value).row i).entry c =
      Finset.univ.centerMass (fun j => (w.row i).entry j) fun j => (value.row j).entry c := by
    rw [Finset.centerMass_eq_of_sum_1 _ _ hsum, entry_product]
    rfl
  rw [hmass]
  exact ⟨Finset.inf_le_centerMass (fun j _ => hpos j) (by rw [hsum]; exact one_pos),
    Finset.centerMass_le_sup (fun j _ => hpos j) (by rw [hsum]; exact one_pos)⟩

/-- Attention averages values: without a mask every row of weights is positive and sums to one, so every answer lies
between the least and the greatest of the values at its place and column.  Under a mask of zeros the answers are zeros and
the weights what they were.  All that it asks of queries and keys are their scores, of those all that it asks is how far
apart they are along a row, and with an exponential of sums their weights are as their exponentials are. -/
theorem attend_averages (hexp : ∀ a : α, 0 < Elementary.exp a) (hk : 0 < k) (query : Tensor α (lead ++ [q, d]))
    (key : Tensor α (lead ++ [k, d])) (value : Tensor α (lead ++ [k, v])) :
    ∃ (S W : Tensor α (lead ++ [q, k])) (out : Tensor α (lead ++ [q, v])),
      attend? ⟨_, query⟩ ⟨_, key⟩ ⟨_, value⟩ none = some (⟨_, out⟩, ⟨_, W⟩) ∧
      (∀ (p : Place lead) (i : Fin q), (∀ j, 0 < ((W.member p).row i).entry j) ∧ ∑ j, ((W.member p).row i).entry j = 1) ∧
      (∀ (p : Place lead) (i : Fin q) (c : Fin v),
        (Finset.univ.inf' ⟨⟨0, hk⟩, Finset.mem_univ _⟩ fun j => ((value.member p).row j).entry c) ≤
            ((out.member p).row i).entry c ∧
          ((out.member p).row i).entry c ≤
            Finset.univ.sup' ⟨⟨0, hk⟩, Finset.mem_univ _⟩ fun j => ((value.member p).row j).entry c) ∧
      attend? ⟨_, query⟩ ⟨_, key⟩ ⟨_, value⟩ (some ⟨_, zeros (lead ++ [q, k])⟩) =
        some (⟨_, zeros (lead ++ [q, v])⟩, ⟨_, W⟩) ∧
      (∀ p : Place lead, S.member p = scores (root d) (query.member p) (key.member p)) ∧
      (∀ mask, attend? ⟨_, query⟩ ⟨_, key⟩ ⟨_, value⟩ mask = weigh? ⟨_, S⟩ ⟨_, value⟩ mask) ∧
      (∀ (shift : Place lead → Fin q → α) (S' : Tensor α (lead ++ [q, k])),
        (∀ p i j, ((S'.member p).row i).entry j = ((S.member p).row i).entry j + shift p i) →
          ∀ value mask, weigh? ⟨_, S'⟩ value mask = weigh? ⟨_, S⟩ value mask) ∧
      ((∀ a b : α, Elementary.exp (a + b) = Elementary.exp a * Elementary.exp b) → ∀ (p : Place lead) i j,
        ((W.member p).row i).entry j =
          Elementary.exp (((S.member p).row i).entry j) / ∑ l, Elementary.exp (((S.member p).row i).entry l)) := by
  let S := allScores query key
  let W : Tensor α (lead ++ [q, k]) := S.mapLast softmax
  have hweights (p : Place lead) (i : Fin q) : (W.member p).row i = ((S.member p).row i).softmax := by
    rw [member_mapLast, row_mapRows]
  have hpos (p : Place lead) (i : Fin q) (j : Fin k) : 0 < ((W.member p).row i).entry j := by
    rw [hweights]
    exact softmax_pos hexp _ j
  have hsum (p : Place lead) (i : Fin q) : ∑ j, ((W.member p).row i).entry j = 1 := by
    rw [hweights]
    exact sum_softmax hexp hk _
  have hattend (mask : Option (AnyTensor α)) : attend? ⟨_, query⟩ ⟨_, key⟩ ⟨_, value⟩ mask = weigh? ⟨_, S⟩ ⟨_, value⟩ mask := by
    rw [attend?_eq_weigh?, scores?_append]
    rfl
  refine ⟨S, W, W.products value, ?plain, fun p i => ⟨hpos p i, hsum p i⟩, fun p i c => ?between, ?zeros,
    member_allScores query key, hattend, fun shift S' hshift value mask => ?shift, fun hadd p i j => ?exponentials⟩
  case plain => exact (hattend none).trans (weigh?_append S value none)
  case between =>
    rw [member_products]
    exact product_between (value.member p) _ (fun j => (hpos p i j).le) (hsum p i) c
  case zeros =>
    refine (hattend _).trans ((weigh?_append S value (some (zeros _))).trans ?_)
    rw [products_zeros]
  case shift =>
    have hmove : S'.mapLast softmax = S.mapLast softmax := mapLast_softmax_shift shift hshift
    simp only [weigh?, AnyTensor.mapLast, hmove]
  case exponentials =>
    rw [hweights]
    exact entry_softmax_of_exp_add hexp hadd _ j

/-- One query among two keys, whose values are two and four. -/
theorem attend_averages_two : ∃ (W : Tensor ℝ [1, 2]) (out : Tensor ℝ [1, 1]),
    attend? (⟨[1, 1], fill 1 [1, 1]⟩ : AnyTensor ℝ) ⟨[2, 1], ofMatrix fun j _ => ((j : Nat) : ℝ)⟩
        ⟨[2, 1], ofMatrix fun j _ => 2 + 2 * ((j : Nat) : ℝ)⟩ none = some (⟨[1, 1], out⟩, ⟨[1, 2], W⟩) ∧
      (W.row 0).entry 0 + (W.row 0).entry 1 = 1 ∧ 2 ≤ (out.row 0).entry 0 ∧ (out.row 0).entry 0 ≤ 4 := by
  let query : Tensor ℝ ([] ++ [1, 1]) := fill 1 [1, 1]
  let key : Tensor ℝ ([] ++ [2, 1]) := ofMatrix fun j _ => ((j : Nat) : ℝ)
  let value : Tensor ℝ ([] ++ [2, 1]) := ofMatrix fun j _ => 2 + 2 * ((j : Nat) : ℝ)
  obtain ⟨-, W, out, hattend, hweights, hbetween, -⟩ := attend_averages Real.exp_pos Nat.two_pos query key value
  have hvalue (j : Fin 2) : ((value.member ()).row j).entry 0 = 2 + 2 * ((j : Nat) : ℝ) := entry_row_ofMatrix _ j 0
  obtain ⟨hleast, hgreatest⟩ := hbetween () 0 0
  refine ⟨W, out, hattend, (Fin.sum_univ_two _).symm.trans (hweights () 0).2, le_trans ?_ hleast, hgreatest.trans ?_⟩
  · refine Finset.le_inf' _ _ fun j _ => ?_
    rw [hvalue]
    exact le_add_of_nonneg_right (by positivity)
  · refine Finset.sup'_le _ _ fun j _ => ?_
    rw [hvalue]
    have hj : ((j : Nat) : ℝ) ≤ 1 := by exact_mod_cast Nat.le_of_lt_succ j.isLt
    linarith

end Attention

end LayerStack
