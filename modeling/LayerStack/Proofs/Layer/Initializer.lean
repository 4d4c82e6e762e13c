import LayerStack.Proofs.Scalar.Real
import LayerStack.Layer.Initializer
import LayerStack.Proofs.Random
import LayerStack.Proofs.Tensor.Reshape

/-!
# LayerStack.Proofs.Layer.Initializer

What the redrawing of truncated first weights comes to.

A tensor of draws that are inside is what stands at all positions after the last of its rounds
(`tensorInside?_eq_some`), and there is one wherever numbers that are inside never cease (`isSome_tensorInside?`).  For
truncated draws inside means at most two units from zero (`withinTwo_iff`), which gives the main statement,
`truncated_redraws`.
-/

namespace LayerStack

/-! ## Tensors of draws -/

namespace Draw

variable {σ α : Type} [Zero α] {inside : α → Bool} {draw : StateM σ α} {shape : Dims} {s s' : σ} {x : Tensor α shape}

/-- A tensor of draws that are inside has what the last round left, and nothing further was drawn. -/
theorem tensorInside?_eq_some (h : tensorInside? inside draw shape s = some (x, s')) :
    ∃ r, x.entries = (rounds inside draw (Dims.volume shape) s r).values ∧
      s' = after draw (used inside draw (Dims.volume shape) s (r + 1)) s ∧
      (rounds inside draw (Dims.volume shape) s r).values.all inside := by
  obtain ⟨last, hlast, heq⟩ := Option.map_eq_some_iff.mp h
  obtain ⟨⟨r, hr⟩, hall⟩ := Round.settle?_eq_some hlast
  have hrounds : rounds inside draw (Dims.volume shape) s r = last := hr
  obtain ⟨rfl, rfl⟩ := Prod.mk.inj heq
  refine ⟨r, ?_, ?_, hrounds ▸ hall⟩
  · rw [hrounds]
    exact Tensor.entries_ofArray (by rw [List.size_toArray, ← hrounds, length_rounds])
  · rw [← source_rounds, hrounds]

/-- There is a tensor of draws that are inside exactly where after some round nothing is outside. -/
theorem isSome_tensorInside?_iff : (tensorInside? inside draw shape s).isSome ↔
    ∃ r, (rounds inside draw (Dims.volume shape) s r).values.all inside := by
  rw [tensorInside?, Option.isSome_map]
  exact Round.isSome_settle?_iff

theorem isSome_tensorInside? (shape : Dims) (hoften : ∀ k, ∃ m, k ≤ m ∧ inside (nth draw s m)) :
    (tensorInside? inside draw shape s).isSome := by
  have hoften' : ∀ k, ∃ m, k ≤ m ∧ inside (nth draw (many draw (Dims.volume shape) s).2 m) := by
    intro k
    obtain ⟨m, hm, hinside⟩ := hoften (Dims.volume shape + k)
    refine ⟨m - Dims.volume shape, by omega, ?_⟩
    rwa [many_eq, nth_after, Nat.add_sub_cancel' (by omega)]
  rw [tensorInside?, Option.isSome_map]
  exact Round.isSome_settle? hoften'

end Draw

/-! ## Truncated draws -/

namespace Initializer

variable {σ α : Type} [OrderedField α]

theorem withinTwo_iff (a : α) : withinTwo a = true ↔ |a| ≤ 2 := by
  have habs : Scalar.abs a = |a| := by
    rcases lt_or_ge a 0 with hneg | hpos
    · rw [Scalar.abs, if_pos hneg, abs_of_neg hneg]
    · rw [Scalar.abs, if_neg (not_lt_of_ge hpos), abs_of_nonneg hpos]
  simp [withinTwo, habs]

theorem withinTwo_eq_false_iff (a : α) : withinTwo a = false ↔ 2 < |a| := by
  rw [← not_iff_not, Bool.not_eq_false, withinTwo_iff, not_lt]

omit [OrderedField α] in
/-- Four schemes make truncated draws. -/
theorem exists_weights_eq_truncated [Scalar α] {scheme : Initializer}
    (h : scheme ∈ [glorotNormal, heNormal, leCunNormal, truncatedNormal]) (shape : Dims) (fanIn fanOut : Value) :
    ∃ deviation : α, scheme.weights shape fanIn fanOut = truncated Draw.spread deviation shape := by
  simp only [List.mem_cons, List.not_mem_nil, or_false] at h
  rcases h with rfl | rfl | rfl | rfl
  · exact ⟨_, rfl⟩
  · exact ⟨_, rfl⟩
  · exact ⟨_, rfl⟩
  · exact ⟨_, rfl⟩

/-- Truncated draws of any shape, from any source.  The first round draws one number for every position, in row-major
order, and each later one the next numbers, in that order again, for just the positions with a number more than two
units from zero.  A number at most two units from zero stays where it is in all later rounds.

Where the rounds end, every entry before scaling is at most two units from zero, it is the first such number of those
drawn for its position, and nothing was drawn after the last round.  The rounds end exactly where after one of them no
number is more than two units from zero, and that is so wherever numbers at most two units from zero never cease.  The
first weights of four schemes are such draws. -/
theorem truncated_redraws (source : StateM σ α) (deviation : α) (shape : Dims) (s : σ) :
    let n := Dims.volume shape
    let number := Draw.nth source s
    let values (r : Nat) := (Draw.rounds withinTwo source n s r).values
    let targets := Draw.targets withinTwo source n s
    let used := Draw.used withinTwo source n s
    (targets 0 = List.range n ∧
      (∀ r, (targets (r + 1)).Pairwise (· < ·) ∧
        ∀ i, i ∈ targets (r + 1) ↔ ∃ a, (values r)[i]? = some a ∧ 2 < |a|) ∧
      used 0 = 0 ∧ (∀ r, used (r + 1) = used r + (targets r).length) ∧
      ∀ r j i, (targets r)[j]? = some i → (values r)[i]? = some (number (used r + j))) ∧
    (∀ (r i : Nat) (a : α), (values r)[i]? = some a → |a| ≤ 2 → ∀ r', r ≤ r' → (values r')[i]? = some a) ∧
    (∀ x s', Draw.tensorInside? withinTwo source shape s = some (x, s') →
      truncated source deviation shape s = (x.map (· * deviation), s') ∧
      (∃ r, x.entries = values r ∧ s' = Draw.after source (used (r + 1)) s) ∧
      ∀ i, i < n → ∃ a, x.entries[i]? = some a ∧ |a| ≤ 2 ∧
        ∃ r j, (targets r)[j]? = some i ∧ a = number (used r + j) ∧
          ∀ r', r' < r → ∃ j', (targets r')[j']? = some i ∧ 2 < |number (used r' + j')|) ∧
    ((Draw.tensorInside? withinTwo source shape s).isSome ↔ ∃ r, ∀ a ∈ values r, |a| ≤ 2) ∧
    ((∀ k, ∃ m, k ≤ m ∧ |number m| ≤ 2) → (Draw.tensorInside? withinTwo source shape s).isSome) ∧
    ∀ scheme ∈ [glorotNormal, heNormal, leCunNormal, truncatedNormal], ∀ fanIn fanOut,
      ∃ deviation : α, scheme.weights shape fanIn fanOut = truncated Draw.spread deviation shape := by
  intro n number values targets used
  refine ⟨⟨rfl, fun r => ⟨List.pairwise_findIdxs, fun i => ?_⟩, rfl, Draw.used_succ withinTwo source n s,
    fun r j i => Draw.getElem?_rounds⟩, ?kept, ?ended, ?iff, ?ends, ?schemes⟩
  · simp only [← withinTwo_eq_false_iff]
    exact Draw.mem_targets_succ
  case kept =>
    intro r i a hi ha r' hle
    exact Draw.getElem?_rounds_of_inside hi ((withinTwo_iff a).mpr ha) hle
  case ended =>
    intro x s' h
    obtain ⟨r, hentries, hstream, hall⟩ := Draw.tensorInside?_eq_some h
    refine ⟨?_, ⟨r, hentries, hstream⟩, fun i hi => ?_⟩
    · have hdrawn : Draw.tensorInside withinTwo source shape s = (x, s') := by
        rw [Draw.tensorInside, h, Option.getD_some]
      have hscaled (p : Tensor α shape × σ) (hp : Draw.tensorInside withinTwo source shape s = p) :
          truncated source deviation shape s = (p.1.map (· * deviation), p.2) := by
        rw [← hp]
        rfl
      exact hscaled _ hdrawn
    · have hlt : i < (values r).length := by rwa [Draw.length_rounds]
      have hthere : (values r)[i]? = some (values r)[i] := List.getElem?_eq_getElem hlt
      have hinside : withinTwo (values r)[i] = true := List.all_eq_true.mp hall _ (List.getElem_mem hlt)
      obtain ⟨q, j, hj, hnumber, hbefore⟩ := Draw.first_inside hthere hinside
      have hentry : x.entries[i]? = some (values r)[i] := by
        rw [hentries]
        exact hthere
      refine ⟨(values r)[i], hentry, (withinTwo_iff _).mp hinside, q, j, hj, hnumber, fun q' hq' => ?_⟩
      obtain ⟨j', hj', hout⟩ := hbefore q' hq'
      exact ⟨j', hj', (withinTwo_eq_false_iff _).mp hout⟩
  case iff =>
    simp only [Draw.isSome_tensorInside?_iff, List.all_eq_true, withinTwo_iff]
    rfl
  case ends =>
    intro hoften
    refine Draw.isSome_tensorInside? shape fun k => ?_
    obtain ⟨m, hm, hinside⟩ := hoften k
    exact ⟨m, hm, (withinTwo_iff _).mpr hinside⟩
  case schemes => exact fun scheme hscheme => exists_weights_eq_truncated hscheme shape

/-- Of threes and ones in turn only ones are left, at both of two positions. -/
theorem truncated_redraws_turns :
    let source : StateM Nat ℝ := fun k => (if k % 2 = 0 then 3 else 1, k + 1)
    (∀ k, ∃ m, k ≤ m ∧ |Draw.nth source 0 m| ≤ 2) ∧
      ∃ x s', Draw.tensorInside? withinTwo source [2] 0 = some (x, s') ∧ ∀ i, i < 2 → x.entries[i]? = some 1 := by
  intro source
  have hafter (k : Nat) : Draw.after source k 0 = k := by
    induction k with
    | zero => rfl
    | succ k ih => rw [Draw.after_add, ih]; rfl
  have hnumber (k : Nat) : Draw.nth source 0 k = if k % 2 = 0 then 3 else 1 := by
    rw [Draw.nth, hafter]
  have hoften : ∀ k, ∃ m, k ≤ m ∧ |Draw.nth source 0 m| ≤ 2 := by
    intro k
    refine ⟨2 * k + 1, by omega, ?_⟩
    have hodd : ¬ (2 * k + 1) % 2 = 0 := by omega
    rw [hnumber, if_neg hodd]
    norm_num
  obtain ⟨_, _, hended, _, hends, _⟩ := truncated_redraws source 1 [2] 0
  obtain ⟨⟨x, s'⟩, h⟩ := Option.isSome_iff_exists.mp (hends hoften)
  refine ⟨hoften, x, s', h, fun i hi => ?_⟩
  obtain ⟨_, _, hfirst⟩ := hended x s' h
  obtain ⟨a, ha, hle, r, j, _, hdrawn, _⟩ := hfirst i hi
  rw [hnumber] at hdrawn
  split at hdrawn
  · rw [hdrawn] at hle
    norm_num at hle
  · rw [ha, hdrawn]

end Initializer

end LayerStack
