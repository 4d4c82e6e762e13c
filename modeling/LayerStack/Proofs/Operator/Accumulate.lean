import LayerStack.Proofs.Operator.Table

/-!
# LayerStack.Proofs.Operator.Accumulate

The gradients of operators with tables.

An operator with a table passes on what rows of the table make of a batch, and on the way back collects a gradient of the
table.  Every use of a row adds to the gradient of that row, so that a change of the table comes to the same under it as
what it changes of the result does under the gradient of that (`Accumulates`).  Where the rows or the sequences have no
entries, no gradient goes back (`Refuses`).  The main statement is `tables_accumulate`.
-/

namespace LayerStack

open Tensor

/-! ## Operators -/

namespace Operator

variable {α β : Type} {m v d n s : Nat} {t lead : Dims}

/-- What an operator with a table does with a batch and with a gradient of its result: with any table it passes on `y` and
then collects the gradient `G` of the table, which no table has a part in.  Any change of the table comes to the same under
`G` as the change that it makes of `y` does under the gradient of that. -/
def Accumulates [ExactScalar α] (o : Tensor α [m, d] → Operator α) (named : Tensor α [m, d] → NamedTensors α)
    (x : AnyTensor α) (y : Tensor α [m, d] → Tensor α t) (g : Tensor α t) (G : Tensor α [m, d]) : Prop :=
  (∀ table training stream, ∃ left dx left', (o table).forward training x stream = ((.ok ⟨t, y table⟩, left), stream) ∧
    left.backward ⟨t, g⟩ = (.ok dx, left') ∧ left'.gradient? = some (named G)) ∧
  ∀ table D, g.inner ((y (table.add D)).sub (y table)) = G.inner D

/-- An operator with a table passes a batch on, but takes no gradient back. -/
def Refuses [Scalar α] (o : Tensor α [m, d] → Operator α) (x g : AnyTensor α) : Prop :=
  ∀ table training stream, ∃ y left, (o table).forward training x stream = ((.ok y, left), stream) ∧
    (left.backward g).1 = .error .mismatch

/-! ## Tokens -/

/-- An operator with a table of tokens, which training moves. -/
def trainedEmbedding (trace : Option (AnyTensor (Fin v))) (gradient : Option (NamedTensors α)) (table : Tensor α [v, d]) :
    Operator α :=
  embedding ⟨⟨true, table⟩, trace, gradient⟩

section Embedding

variable [ExactScalar α] {x : Tensor α lead} {tokens : Tensor (Fin v) lead} (trace : Option (AnyTensor (Fin v)))
  (gradient : Option (NamedTensors α))

theorem forward_trainedEmbedding (hv : v ≤ Word.half) (hreads : Embedding.Reads x tokens) (table : Tensor α [v, d])
    (training : Bool) (stream : Stream) :
    (trainedEmbedding trace gradient table).forward training ⟨lead, x⟩ stream =
      ((.ok ⟨lead ++ [d], Embedding.rowsAt table tokens⟩, trainedEmbedding (some ⟨lead, tokens⟩) gradient table), stream) := by
  have hforward := ((⟨true, table⟩ : Embedding α v d).forwardBatch_eq_ok hv).mpr ⟨tokens, hreads, rfl⟩
  rw [trainedEmbedding, forward, hforward]
  rfl

theorem backward_trainedEmbedding (hd : 0 < d) (table : Tensor α [v, d]) (g : Tensor α (lead ++ [d])) :
    (trainedEmbedding (some ⟨lead, tokens⟩) gradient table).backward ⟨lead ++ [d], g⟩ =
      (.ok ⟨lead, zeros lead⟩, trainedEmbedding (some ⟨lead, tokens⟩)
        (some (embeddingTable (Embedding.gradient (zipWith Prod.mk tokens (blocks lead g))))) table) := by
  have hback := Embedding.backwardBatch_mk (e := ⟨true, table⟩) rfl hd tokens g
  simp only [trainedEmbedding, backward, backwardEmbedding, hback]
  rfl

/-- The row of a token is given what every use of it is. -/
theorem embedding_accumulates (hv : v ≤ Word.half) (hreads : Embedding.Reads x tokens) (hd : 0 < d)
    (g : Tensor α (lead ++ [d])) : ∃ G : Tensor α [v, d],
      Accumulates (trainedEmbedding trace gradient) embeddingTable ⟨lead, x⟩ (Embedding.rowsAt · tokens) g G ∧
        ∀ (token : Fin v) (i : Fin d), (G.row token).entry i = ∑ p with tokens.pick p = token, (g.member p).entry i := by
  let uses := zipWith Prod.mk tokens (blocks lead g)
  have huse (p : Place lead) : uses.pick p = (tokens.pick p, g.member p) := pick_zipWith _ _ _ p
  refine ⟨Embedding.gradient uses, ⟨fun table training stream => ?runs, fun table D => ?change⟩, fun token i => ?rows⟩
  case runs =>
    exact ⟨_, _, _, forward_trainedEmbedding trace gradient hv hreads table training stream,
      backward_trainedEmbedding gradient hd table g, rfl⟩
  case change =>
    rw [Embedding.rowsAt_add, Embedding.inner_rowsAt, Embedding.gradient_inner]
    exact Finset.sum_congr rfl fun p _ => by rw [huse]
  case rows =>
    rw [Embedding.entry_gradient]
    simp only [huse]

theorem embedding_refuses {tokens : Tensor (Fin v) lead} (hv : v ≤ Word.half) (hreads : Embedding.Reads x tokens)
    (g : AnyTensor α) : Refuses (d := 0) (trainedEmbedding (v := v) trace gradient) ⟨lead, x⟩ g := fun table training stream => by
  refine ⟨_, _, forward_trainedEmbedding trace gradient hv hreads table training stream, ?_⟩
  have hback := Embedding.backwardBatch_of_empty (e := ⟨true, table⟩) rfl ⟨lead, tokens⟩ g
  simp only [trainedEmbedding, backward, backwardEmbedding, hback]

end Embedding

/-! ## Positions -/

/-- An operator with a table of positions, which training moves. -/
def learnedPositions (trace : Option Nat) (gradient : Option (NamedTensors α)) (table : Tensor α [n, d]) : Operator α :=
  positions ⟨⟨true, .int n, .int d, table⟩, trace, gradient⟩

section Positions

variable [ExactScalar α] (trace : Option Nat) (gradient : Option (NamedTensors α)) (hs : s ≤ n)

theorem forward_learnedPositions (x : Tensor α (lead ++ [s, d])) (table : Tensor α [n, d]) (training : Bool)
    (stream : Stream) : (learnedPositions trace gradient table).forward training ⟨lead ++ [s, d], x⟩ stream =
      ((.ok ⟨lead ++ [s, d], PositionTable.placed table hs x⟩, learnedPositions (some s) gradient table), stream) := by
  have hforward := PositionTable.forwardBatch_mk (p := ⟨true, .int n, .int d, table⟩) rfl rfl hs x
  rw [learnedPositions, forward, hforward]
  rfl

theorem backward_learnedPositions (hpos : 0 < s ∧ 0 < d) (table : Tensor α [n, d]) (g : Tensor α (lead ++ [s, d])) :
    (learnedPositions (some s) gradient table).backward ⟨lead ++ [s, d], g⟩ = (.ok ⟨lead ++ [s, d], g⟩,
      learnedPositions (some s) (some (encodingTable (PositionTable.batchGradient g : Tensor α [n, d]))) table) := by
  have hback := PositionTable.gradientBatch_mk (n := n) hpos.1 hpos.2 g
  simp only [learnedPositions, backward, backwardPositions, if_true, Cell.wayBack, hback]
  rfl

include hs in
/-- A row is given what it is at its position in every sequence, and nothing if no sequence is as long. -/
theorem positions_accumulate (hpos : 0 < s ∧ 0 < d) (x g : Tensor α (lead ++ [s, d])) : ∃ G : Tensor α [n, d],
    Accumulates (learnedPositions trace gradient) encodingTable ⟨lead ++ [s, d], x⟩ (PositionTable.placed · hs x) g G ∧
      ∀ i : Fin n, s ≤ i → G.row i = zeros [d] := by
  refine ⟨PositionTable.batchGradient g, ⟨fun table training stream => ?runs, fun table D => ?change⟩, fun i hi => ?beyond⟩
  case runs =>
    exact ⟨_, _, _, forward_learnedPositions trace gradient hs x table training stream,
      backward_learnedPositions gradient hpos table g, rfl⟩
  case change =>
    rw [PositionTable.batchGradient_inner hs, inner_eq_sum_member]
    exact Finset.sum_congr rfl fun p _ => by rw [PositionTable.member_placed_add]
  case beyond => exact PositionTable.row_batchGradient g hi

include hs in
theorem positions_refuse (hpos : ¬ (0 < s ∧ 0 < d)) (x : Tensor α (lead ++ [s, d])) (g : AnyTensor α) :
    Refuses (learnedPositions (n := n) (d := d) trace gradient) ⟨lead ++ [s, d], x⟩ g := fun table training stream => by
  refine ⟨_, _, forward_learnedPositions trace gradient hs x table training stream, ?_⟩
  have hback := PositionTable.gradientBatch_of_empty (n := n) hpos g
  simp only [learnedPositions, backward, backwardPositions, if_true, Cell.wayBack, hback]
  rfl

end Positions

/-! ## Both tables -/

/-- Tables of rows, in exact arithmetic.  A table of tokens, of no more rows than words count, takes a batch of any axes
just where all entries are whole and have a row.  Of tokens with rows of some width the gradient is, row by row, the sum of
the gradients at the places that hold the token; of sequences of any lengths up to that of a table of positions it is zero
in every row beyond them.  Under either gradient every change of the table comes to what it changes of the result under the
gradient of that.  Rows of no width and sequences of no length go forward, but no gradient of them goes back. -/
theorem tables_accumulate [ExactScalar α] [Scalar β] (hv : v ≤ Word.half) :
    (∀ (c : Cell β (Embedding β v d) (AnyTensor (Fin v))) (x : Tensor β lead) (training : Bool) (stream : Stream),
      (∃ fault, ((embedding c).forward training ⟨lead, x⟩ stream).1.1 = .error fault) ↔
        ∃ p, Scalar.whole? (x.pick p) = none ∨ ∃ id, Scalar.whole? (x.pick p) = some id ∧ (id < 0 ∨ v ≤ id)) ∧
    (∀ (x : Tensor α lead) (tokens : Tensor (Fin v) lead), Embedding.Reads x tokens →
      ∀ (g : Tensor α (lead ++ [d])) (trace : Option (AnyTensor (Fin v))) (gradient : Option (NamedTensors α)),
        (0 < d → ∃ G : Tensor α [v, d],
          Accumulates (trainedEmbedding trace gradient) embeddingTable ⟨lead, x⟩ (Embedding.rowsAt · tokens) g G ∧
            ∀ (token : Fin v) (i : Fin d),
              (G.row token).entry i = ∑ p with tokens.pick p = token, (g.member p).entry i) ∧
        (d = 0 → Refuses (m := v) (d := d) (trainedEmbedding trace gradient) ⟨lead, x⟩ ⟨lead ++ [d], g⟩)) ∧
    (∀ (hs : s ≤ n) (x g : Tensor α (lead ++ [s, d])) (trace : Option Nat) (gradient : Option (NamedTensors α)),
      (0 < s ∧ 0 < d → ∃ G : Tensor α [n, d],
        Accumulates (learnedPositions trace gradient) encodingTable ⟨lead ++ [s, d], x⟩ (PositionTable.placed · hs x) g G ∧
          ∀ i : Fin n, s ≤ i → G.row i = zeros [d]) ∧
      (¬ (0 < s ∧ 0 < d) →
        Refuses (m := n) (d := d) (learnedPositions trace gradient) ⟨lead ++ [s, d], x⟩ ⟨lead ++ [s, d], g⟩)) := by
  refine ⟨fun c x training stream => ?faults, fun x tokens hreads g trace gradient =>
    ⟨fun hd => embedding_accumulates trace gradient hv hreads hd g, fun hd => ?narrow⟩, fun hs x g trace gradient =>
    ⟨fun hpos => positions_accumulate trace gradient hs hpos x g, fun hpos => positions_refuse trace gradient hs hpos x _⟩⟩
  case faults =>
    rw [← c.layer.forwardBatch_fails_iff hv x]
    simp only [forward, run_pure]
    cases c.layer.forwardBatch ⟨lead, x⟩ with
    | error fault => exact ⟨fun _ => ⟨fault, rfl⟩, fun _ => ⟨fault, rfl⟩⟩
    | ok result => constructor <;> rintro ⟨fault, hfault⟩ <;> cases hfault
  case narrow =>
    subst hd
    exact embedding_refuses trace gradient hv hreads _

/-- Three tokens, two of them the same, under a gradient of ones. -/
theorem tables_accumulate_repeated :
    let tokens : Tensor (Fin 3) [3] := ofEntries fun i => if i = 0 then 1 else 2
    let x : Tensor ℝ [3] := tokens.map fun t => ((t.val : Nat) : ℝ)
    3 ≤ Word.half ∧ Embedding.Reads x tokens ∧ ∃ G : Tensor ℝ [3, 1],
      Accumulates (trainedEmbedding none none) embeddingTable ⟨[3], x⟩ (Embedding.rowsAt · tokens) (fill 1 ([3] ++ [1])) G ∧
        (G.row 2).entry 0 = 2 := by
  intro tokens x
  have hv : 3 ≤ Word.half := by decide
  have hreads : Embedding.Reads x tokens := fun p => by
    have hpick : x.pick p = (((tokens.pick p).val : Nat) : ℝ) := pick_map _ _ p
    rw [hpick]
    simp [Scalar.whole?]
  obtain ⟨G, haccumulates, hrows⟩ := ((tables_accumulate (α := ℝ) (β := ℝ) (n := 0) (s := 0) hv).2.1 x tokens hreads
    (fill 1 ([3] ++ [1])) none none).1 Nat.one_pos
  have hplaces : (Finset.univ.filter fun p => tokens.pick p = 2).card = 2 := by decide
  refine ⟨hv, hreads, G, haccumulates, (hrows 2 0).trans ?_⟩
  simp only [member_fill, entry_fill, Finset.sum_const, hplaces]
  norm_num

/-- A sequence of no length goes forward, but a table that is learned takes no gradient of it back, as one that is not
learned does. -/
theorem learned_refuses_empty :
    let x : AnyTensor ℝ := ⟨[1, 0, 2], zeros [1, 0, 2]⟩
    Refuses (learnedPositions (n := 4) (d := 2) none none) x x ∧
      ∃ y left, (positions ⟨⟨false, .int 4, .int 2, zeros [4, 2]⟩, none, none⟩).forward false x (Stream.ofSeed 1) =
          ((.ok y, left), Stream.ofSeed 1) ∧ (left.backward x).1 = .ok x := by
  intro x
  let sequences : Tensor ℝ ([1] ++ [0, 2]) := zeros [1, 0, 2]
  let fixed : PositionTable ℝ 4 2 := ⟨false, .int 4, .int 2, zeros [4, 2]⟩
  have hforward : fixed.forwardBatch x = .ok (⟨[1, 0, 2], PositionTable.placed fixed.table (Nat.zero_le 4) sequences⟩, 0) :=
    PositionTable.forwardBatch_mk rfl rfl (Nat.zero_le 4) sequences
  refine ⟨positions_refuse none none (Nat.zero_le 4) (fun h => absurd h.1 (Nat.lt_irrefl 0)) sequences x,
    ⟨[1, 0, 2], PositionTable.placed fixed.table (Nat.zero_le 4) sequences⟩, positions ⟨fixed, some 0, none⟩, ?_, rfl⟩
  show (Prod.map id positions ((⟨fixed, none, none⟩ : Cell ℝ (PositionTable ℝ 4 2) Nat).pass (fixed.forwardBatch x)),
    Stream.ofSeed 1) = _
  rw [hforward]
  rfl

end Operator

end LayerStack
