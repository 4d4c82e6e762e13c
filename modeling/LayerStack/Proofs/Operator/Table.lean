import LayerStack.Proofs.Scalar.Real
import LayerStack.Proofs.Operator.Backward
import LayerStack.Proofs.Operator.Sample
import LayerStack.Proofs.Tensor.Place
import LayerStack.Operator

/-!
# LayerStack.Proofs.Operator.Table

Batches of tokens and of sequences through a table, and gradients of them.

A table of tokens gives every place of a batch the row of its token: that is the whole of a forward pass, and it has a
result just where all entries are tokens (`forwardBatch_eq_ok`, `forwardBatch_fails_iff`).  The gradient is a fold over the
places that adds to one row at a time, so an entry of it is a sum over the places that use its row (`entry_gradient`), and a
change of the table comes under it to a sum over all places (`gradient_inner`).  A table of positions adds its first rows to
every sequence, and its gradient is a sum over the sequences, with zeros in the rows beyond (`batchGradient_inner`,
`row_batchGradient`).
-/

namespace LayerStack

open Tensor

/-! ## Rows -/

namespace Tensor

variable {α : Type} {n m : Nat} {s lead : Dims}

theorem row_addAt [Add α] (x : Tensor α (n :: s)) (i j : Fin n) (y : Tensor α s) :
    (x.addAt i y).row j = if i = j then (x.row i).add y else x.row j := by
  refine (Vector.getElem_set i.isLt j.isLt).trans ?_
  simp only [Fin.ext_iff]
  rfl

@[simp] theorem row_firstRows (x : Tensor α (n :: s)) (h : m ≤ n) (i : Fin m) : (x.firstRows h).row i = x.row (i.castLE h) :=
  row_ofFn _ i

/-- A change of a tensor is what it differs by from before. -/
theorem add_sub_self [CommRing α] (x y : Tensor α s) : (x.add y).sub x = y :=
  ext_pick fun p => by rw [sub, add, pick_zipWith, pick_zipWith, add_sub_cancel_left]

theorem map_zero_eq_zeros {β : Type} [Zero α] (x : Tensor β s) : x.map (fun _ => (0 : α)) = zeros s :=
  ext_pick fun p => by rw [pick_map, zeros, pick_fill]

theorem inner_addAt [CommRing α] (x : Tensor α (n :: s)) (i : Fin n) (y : Tensor α s) (D : Tensor α (n :: s)) :
    (x.addAt i y).inner D = x.inner D + y.inner (D.row i) := by
  have hrow (j : Fin n) : ((x.addAt i y).row j).inner (D.row j) =
      (x.row j).inner (D.row j) + if i = j then y.inner (D.row i) else 0 := by
    rw [row_addAt]
    split
    · next h => rw [← h, add_inner]
    · rw [add_zero]
  simp only [inner_eq_sum_row, hrow, Finset.sum_add_distrib, Finset.sum_ite_eq, Finset.mem_univ, if_true]

end Tensor

/-! ## Tokens -/

/-- No integer that a table has a row for is taken for another as a word. -/
theorem Word.narrow_eq_iff {v : Nat} (hv : v ≤ Word.half) (t : Fin v) (n : Int) : Word.narrow n = t ↔ n = t := by
  have ht := t.isLt
  have hhalf : 0 < Word.half := by decide
  simp only [Word.narrow, Word.isSigned, Bool.and_eq_true, decide_eq_true_eq]
  split <;> omega

namespace Embedding

variable {α : Type} {v d : Nat} {lead : Dims}

/-- The rows of a table at some tokens. -/
def rowsAt (table : Tensor α [v, d]) (tokens : Tensor (Fin v) lead) : Tensor α (lead ++ [d]) :=
  join lead (tokens.map table.row)

theorem row?_eq_some {n : Int} {t : Fin v} : row? v n = some t ↔ n = t := by
  have ht := t.isLt
  unfold row?
  split
  · simp only [Option.some_inj, Fin.ext_iff]
    omega
  · simp only [reduceCtorEq, false_iff]
    omega

/-- Words are rows of a table that has one for each. -/
theorem inRange?_eq_ok {ids : Tensor Int lead} {rows : AnyTensor (Fin v)} : inRange? v ⟨lead, ids⟩ = .ok rows ↔
    ∃ tokens : Tensor (Fin v) lead, (∀ p, ids.pick p = tokens.pick p) ∧ (⟨lead, tokens⟩ : AnyTensor (Fin v)) = rows := by
  rw [← toOption_eq_some, toOption_inRange?, AnyTensor.traverse?, Option.map_eq_some_iff]
  simp only [traverse?_eq_some, row?_eq_some]

section Tokens

variable [Scalar α]

/-- The entries of a tensor are tokens. -/
def Reads (x : Tensor α lead) (tokens : Tensor (Fin v) lead) : Prop :=
  ∀ p, Scalar.whole? (x.pick p) = some (tokens.pick p : Int)

/-- Whole entries are read as words, and nothing else is read. -/
theorem tokens?_eq_ok {x : Tensor α lead} {ids : AnyTensor Int} : tokens? ⟨lead, x⟩ = .ok ids ↔
    ∃ whole : Tensor Int lead, (∀ p, Scalar.whole? (x.pick p) = some (whole.pick p)) ∧
      (⟨lead, whole.map Word.narrow⟩ : AnyTensor Int) = ids := by
  have htest : (x.map Scalar.whole?).foldl (fun ok n => ok && n.isSome) true = true ↔
      ∀ p, (Scalar.whole? (x.pick p)).isSome = true :=
    foldl_and_eq_true.trans (forall_congr' fun p => by rw [pick_map])
  have hread (whole : Tensor Int lead) (hwhole : ∀ p, Scalar.whole? (x.pick p) = some (whole.pick p)) :
      (x.map Scalar.whole?).map (fun n => Word.narrow (n.getD 0)) = whole.map Word.narrow :=
    ext_pick fun p => by rw [pick_map, pick_map, pick_map, hwhole, Option.getD_some]
  simp only [tokens?, AnyTensor.map, htest]
  constructor
  · intro h
    split at h
    · next hsome =>
        obtain ⟨whole, hwhole⟩ := exists_pick fun p => Option.isSome_iff_exists.mp (hsome p)
        refine ⟨whole, hwhole, ?_⟩
        rw [← hread whole hwhole]
        exact Except.ok.inj h
    · contradiction
  · rintro ⟨whole, hwhole, rfl⟩
    rw [if_pos fun p => by rw [hwhole]; rfl, hread whole hwhole]

/-- A batch forward: there is a result where all entries are tokens, and it is their rows. -/
theorem forwardBatch_eq_ok (hv : v ≤ Word.half) (e : Embedding α v d) {x : Tensor α lead}
    {result : AnyTensor α × AnyTensor (Fin v)} : e.forwardBatch ⟨lead, x⟩ = .ok result ↔
      ∃ tokens : Tensor (Fin v) lead, Reads x tokens ∧
        (⟨lead ++ [d], rowsAt e.table tokens⟩, ⟨lead, tokens⟩) = result := by
  simp only [forwardBatch, bind_eq_ok, tokens?_eq_ok, pure_eq_ok]
  constructor
  · rintro ⟨ids, ⟨whole, hwhole, rfl⟩, rows, hrows, rfl⟩
    obtain ⟨tokens, htokens, rfl⟩ := inRange?_eq_ok.mp hrows
    refine ⟨tokens, fun p => (hwhole p).trans (congrArg some ?_), rfl⟩
    exact (Word.narrow_eq_iff hv _ _).mp ((pick_map _ _ _).symm.trans (htokens p))
  · rintro ⟨tokens, hreads, rfl⟩
    let whole : Tensor Int lead := tokens.map fun t : Fin v => (t.val : Int)
    have hwhole (p : Place lead) : whole.pick p = tokens.pick p := pick_map _ _ _
    refine ⟨_, ⟨whole, fun p => by rw [hwhole, hreads], rfl⟩, _, inRange?_eq_ok.mpr ⟨tokens, fun p => ?_, rfl⟩, rfl⟩
    rw [pick_map, Word.narrow_eq_iff hv, hwhole]

/-- It fails where some entry is not whole, or is no row of the table. -/
theorem forwardBatch_fails_iff (hv : v ≤ Word.half) (e : Embedding α v d) (x : Tensor α lead) :
    (∃ fault, e.forwardBatch ⟨lead, x⟩ = .error fault) ↔
      ∃ p, Scalar.whole? (x.pick p) = none ∨ ∃ n, Scalar.whole? (x.pick p) = some n ∧ (n < 0 ∨ v ≤ n) := by
  constructor
  · rintro ⟨fault, hfault⟩
    by_contra hall
    push Not at hall
    have htoken (p : Place lead) : ∃ t : Fin v, Scalar.whole? (x.pick p) = some (t : Int) := by
      obtain ⟨hwhole, hrow⟩ := hall p
      obtain ⟨n, hn⟩ := Option.ne_none_iff_exists'.mp hwhole
      obtain ⟨hlow, hhigh⟩ := hrow n hn
      exact ⟨⟨n.toNat, by omega⟩, hn.trans (congrArg some (Int.toNat_of_nonneg hlow).symm)⟩
    obtain ⟨tokens, htokens⟩ := exists_pick htoken
    have hok := (e.forwardBatch_eq_ok hv).mpr ⟨tokens, htokens, rfl⟩
    rw [hfault] at hok
    contradiction
  · rintro ⟨p, hp⟩
    cases hresult : e.forwardBatch ⟨lead, x⟩ with
    | error fault => exact ⟨fault, rfl⟩
    | ok result =>
        obtain ⟨tokens, hreads, -⟩ := (e.forwardBatch_eq_ok hv).mp hresult
        have htoken := (tokens.pick p).isLt
        rw [hreads p] at hp
        obtain hp | ⟨n, hn, hrange⟩ := hp
        · contradiction
        · have hvalue := Option.some.inj hn
          omega

end Tokens

section Gradient

theorem rowsAt_add [CommRing α] (table D : Tensor α [v, d]) (tokens : Tensor (Fin v) lead) :
    (rowsAt (table.add D) tokens).sub (rowsAt table tokens) = rowsAt D tokens :=
  ext_member fun p => by
    rw [sub, member_zipWith, rowsAt, rowsAt, rowsAt, member_join, member_join, member_join, pick_map, pick_map, pick_map,
      row_add]
    exact add_sub_self _ _

/-- What a change of the table comes to under a gradient of rows. -/
theorem inner_rowsAt [CommRing α] (g : Tensor α (lead ++ [d])) (D : Tensor α [v, d]) (tokens : Tensor (Fin v) lead) :
    g.inner (rowsAt D tokens) = ∑ p, (g.member p).inner (D.row (tokens.pick p)) := by
  rw [inner_eq_sum_member]
  exact Finset.sum_congr rfl fun p _ => by rw [rowsAt, member_join, pick_map]

variable [CommRing α] (uses : Tensor (Fin v × Tensor α [d]) lead)

/-- Every use of a row adds to it. -/
theorem entry_gradient (t : Fin v) (i : Fin d) :
    ((gradient uses).row t).entry i = ∑ p with (uses.pick p).1 = t, (uses.pick p).2.entry i := by
  have hstep (x : Tensor α [v, d]) (use : Fin v × Tensor α [d]) : ((x.addAt use.1 use.2).row t).entry i =
      (x.row t).entry i + if use.1 = t then use.2.entry i else 0 := by
    rw [row_addAt]
    split
    · next h => rw [← h, entry_add]
    · rw [add_zero]
  rw [gradient, foldl_eq_sum_pick (fun x : Tensor α [v, d] => (x.row t).entry i) _ hstep, row_zeros, entry_zeros, zero_add,
    Finset.sum_filter]

/-- So a change of the table comes to what it comes to at each use of a row. -/
theorem gradient_inner (D : Tensor α [v, d]) :
    (gradient uses).inner D = ∑ p, (uses.pick p).2.inner (D.row (uses.pick p).1) := by
  rw [gradient, foldl_eq_sum_pick (fun x : Tensor α [v, d] => x.inner D) (fun use => use.2.inner (D.row use.1))
    (fun x use => inner_addAt x use.1 use.2 D), zeros_inner, zero_add]

end Gradient

section Batches

variable [ExactScalar α]

/-- The gradient of a trained table, from one of rows that have entries. -/
theorem backwardBatch_mk {e : Embedding α v d} (htrainable : e.trainable = true) (hd : 0 < d) (tokens : Tensor (Fin v) lead)
    (g : Tensor α (lead ++ [d])) : e.backwardBatch ⟨lead, tokens⟩ ⟨lead ++ [d], g⟩ =
      .ok (⟨lead, zeros lead⟩, some (gradient (zipWith Prod.mk tokens (blocks lead g)))) := by
  have hvolume : 0 < Dims.volume [d] := Dims.volume_pos (by simpa using hd)
  have hcut : AnyTensor.cut? ⟨lead ++ [d], g⟩ [d] = some ⟨lead, blocks lead g⟩ :=
    AnyTensor.cut?_eq_blocks? hvolume (AnyTensor.blocks?_mk lead [d] g)
  have hreal : AnyTensor.map Scalar.real ⟨lead ++ [d], g⟩ = ⟨lead ++ [d], g⟩ :=
    congrArg (AnyTensor.mk _) (map_eq_self Scalar.real_eq_self g)
  have hrows : rows? lead ⟨lead ++ [d], g⟩ = some ⟨lead, blocks lead g⟩ := rows?_of_cut hcut rfl
  simp only [backwardBatch, htrainable, if_true, hreal, bind_eq_ok, pure_eq_ok, fit_eq_ok]
  exact ⟨_, hrows, _, AnyTensor.zipWith?_mk _ _ _, by rw [AnyTensor.map, map_zero_eq_zeros]⟩

/-- How many rows without entries there are, a gradient does not tell. -/
theorem backwardBatch_of_empty {e : Embedding α v 0} (htrainable : e.trainable = true) (tokens : AnyTensor (Fin v))
    (g : AnyTensor α) : e.backwardBatch tokens g = .error .mismatch := by
  have hrows : rows? (d := 0) tokens.dims (g.map Scalar.real) = none := rfl
  simp only [backwardBatch, htrainable, if_true, hrows]
  rfl

end Batches

end Embedding

/-! ## Positions -/

namespace PositionTable

variable {α : Type} {n d s : Nat} {lead : Dims}

/-- Sequences with the first rows of a table added. -/
def placed [Add α] (table : Tensor α [n, d]) (hs : s ≤ n) (x : Tensor α (lead ++ [s, d])) : Tensor α (lead ++ [s, d]) :=
  join lead ((blocks lead x).map fun a => a.add (table.firstRows hs))

theorem forwardBatch_mk [Add α] {p : PositionTable α n d} (hgreatest : p.greatest = .int n) (hfits : p.fits = .int d)
    (hs : s ≤ n) (x : Tensor α (lead ++ [s, d])) :
    p.forwardBatch ⟨lead ++ [s, d], x⟩ = .ok (⟨lead ++ [s, d], placed p.table hs x⟩, s) := by
  have hlength : (s : Int) ≤ n := by exact_mod_cast hs
  exact forwardBatch_of_blocks hgreatest hfits hlength hs rfl (AnyTensor.blocks?_mk lead [s, d] x)

section Gradient

variable [CommRing α]

/-- A change of the table is one of its first rows, whatever they are added to. -/
theorem member_placed_add (table D : Tensor α [n, d]) (hs : s ≤ n) (x : Tensor α (lead ++ [s, d])) (p : Place lead) :
    ((placed (table.add D) hs x).sub (placed table hs x)).member p = D.firstRows hs :=
  ext_row fun i => ext_entry fun j => by
    rw [sub, member_zipWith, placed, placed, member_join, member_join, pick_map, pick_map]
    simp only [row_zipWith, entry_zipWith, row_add, entry_add, row_firstRows, add_sub_add_left_eq_sub, add_sub_cancel_left]

/-- Under the gradient of one sequence it comes to what it comes to there. -/
theorem gradient_inner (hs : s ≤ n) (g : Tensor α [s, d]) (D : Tensor α [n, d]) :
    (gradient (n := n) g).inner D = g.inner (D.firstRows hs) := by
  obtain ⟨k, rfl⟩ := Nat.exists_eq_add_of_le hs
  have hbelow (i : Fin s) : (gradient (n := s + k) g).row (i.castAdd k) = g.row i :=
    (row_ofFn _ _).trans (dif_pos i.isLt)
  have hbeyond (j : Fin k) : (gradient (n := s + k) g).row (j.natAdd s) = zeros [d] :=
    (row_ofFn _ _).trans (dif_neg (by simp))
  -- The rows are those of the sequence and the ones beyond it, where the gradient is zero.
  rw [inner_eq_sum_row, inner_eq_sum_row, Fin.sum_univ_add]
  simp only [hbelow, hbeyond, zeros_inner, Finset.sum_const_zero, add_zero, row_firstRows]
  rfl

/-- The gradient of the table from a batch of sequences. -/
def batchGradient (g : Tensor α (lead ++ [s, d])) : Tensor α [n, d] :=
  (map (gradient (n := n)) (blocks lead g)).foldl add (zeros [n, d])

theorem batchGradient_inner (hs : s ≤ n) (g : Tensor α (lead ++ [s, d])) (D : Tensor α [n, d]) :
    (batchGradient g : Tensor α [n, d]).inner D = ∑ p : Place lead, (g.member p).inner (D.firstRows hs) := by
  have hadd (x y : Tensor α [n, d]) : (x.add y).inner D = x.inner D + y.inner D := add_inner x y D
  rw [batchGradient, foldl_eq_sum_pick (inner · D) (inner · D) hadd, zeros_inner, zero_add]
  exact Finset.sum_congr rfl fun p _ => by rw [pick_map, gradient_inner hs, member]

/-- Rows beyond the sequences have none. -/
theorem row_batchGradient (g : Tensor α (lead ++ [s, d])) {i : Fin n} (hi : s ≤ i) :
    (batchGradient g : Tensor α [n, d]).row i = zeros [d] := by
  have hrow (a : Tensor α [s, d]) : (gradient (n := n) a).row i = zeros [d] := (row_ofFn _ _).trans (dif_neg (by omega))
  refine ext_entry fun j => ?_
  have hadd (x y : Tensor α [n, d]) : ((x.add y).row i).entry j = (x.row i).entry j + (y.row i).entry j := by
    rw [row_add, entry_add]
  rw [batchGradient, foldl_eq_sum_pick (fun x : Tensor α [n, d] => (x.row i).entry j) _ hadd]
  simp only [pick_map, hrow, row_zeros, entry_zeros, Finset.sum_const_zero, add_zero]

/-- The gradient from a batch of sequences with entries. -/
theorem gradientBatch_mk (hs : 0 < s) (hd : 0 < d) (g : Tensor α (lead ++ [s, d])) :
    gradientBatch s ⟨lead ++ [s, d], g⟩ = .ok (batchGradient g : Tensor α [n, d]) := by
  have hvolume : 0 < Dims.volume [s, d] := Dims.volume_pos (by simp [hs, hd])
  have hcut := AnyTensor.cut?_eq_blocks? hvolume (AnyTensor.blocks?_mk lead [s, d] g)
  simp only [gradientBatch, bind_eq_ok, fit_eq_ok, pure_eq_ok]
  exact ⟨_, hcut, rfl⟩

/-- How many sequences without entries there are, a gradient does not tell. -/
theorem gradientBatch_of_empty (h : ¬ (0 < s ∧ 0 < d)) (g : AnyTensor α) :
    gradientBatch (n := n) (d := d) s g = .error .mismatch := by
  have hvolume : ¬ 0 < Dims.volume [s, d] := by simpa [Dims.volume] using h
  have hcut : g.cut? [s, d] = none := by simp only [AnyTensor.cut?, if_neg hvolume]
  simp only [gradientBatch, hcut]
  rfl

end Gradient

end PositionTable

end LayerStack
