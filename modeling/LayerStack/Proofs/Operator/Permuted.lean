import LayerStack.Proofs.Operator.Transpose.Attention
import LayerStack.Proofs.Operator.Inference
import LayerStack.Proofs.Tensor.Batch

/-!
# LayerStack.Proofs.Operator.Permuted

Self-attention knows no order.

What works on the rows of a sequence one by one does so in any order of them.  Attention looks at all rows at once, but only
through sums over positions and through the largest score of a row, and neither hangs on the order in which it takes them.
So with the positions of a sequence in another order, weights come in that order on both of their axes, answers come in that
order, and so does what the layer passes on (`attends_permuted`).
-/

namespace LayerStack

open Tensor

/-! ## Rows in another order -/

namespace Tensor

variable {α β : Type} {n m h d : Nat} {s t : Dims}

/-- The rows in another order: row `i` is what was row `p i`. -/
def permute (p : Equiv.Perm (Fin n)) (x : Tensor α (n :: s)) : Tensor α (n :: s) := ofFn fun i => x.row (p i)

/-- Rows and columns in another order. -/
def permuteBoth (p : Equiv.Perm (Fin n)) (x : Tensor α [n, n]) : Tensor α [n, n] := mapRows (permute p) (x.permute p)

variable (p : Equiv.Perm (Fin n))

@[simp] theorem row_permute (x : Tensor α (n :: s)) (i : Fin n) : (x.permute p).row i = x.row (p i) := row_ofFn _ i

@[simp] theorem entry_permute (x : Tensor α [n]) (i : Fin n) : (x.permute p).entry i = x.entry (p i) := row_permute p x i

@[simp] theorem row_permuteBoth (x : Tensor α [n, n]) (i : Fin n) : (x.permuteBoth p).row i = (x.row (p i)).permute p := by
  rw [permuteBoth, row_mapRows, row_permute]

/-- What works row by row does so in any order. -/
theorem mapRows_permute (f : Tensor α s → Tensor β t) (x : Tensor α (n :: s)) :
    (x.permute p).mapRows f = (x.mapRows f).permute p :=
  ext_row fun i => by simp only [row_mapRows, row_permute]

theorem add_permute [Add α] (x y : Tensor α (n :: s)) : (x.permute p).add (y.permute p) = (x.add y).permute p :=
  ext_row fun i => by simp only [row_add, row_permute]

theorem splitHeads_permute (x : Tensor α [n, h * d]) :
    splitHeads (x.permute p) = mapRows (permute p) (splitHeads x : Tensor α [h, n, d]) :=
  ext_row fun a => ext_matrix fun t j => by
    rw [row_mapRows, row_permute, entry_splitHeads, entry_splitHeads, row_permute]

theorem mergeHeads_permute (x : Tensor α [h, n, d]) : mergeHeads (mapRows (permute p) x) = (mergeHeads x).permute p :=
  ext_matrix fun t j => by
    rw [row_permute, entry_mergeHeads, entry_mergeHeads, row_mapRows, row_permute]

/-! ### Softmax -/

theorem foldl_maximum_le_iff [OrderedScalar α] (k : Nat) (e : Fin k → α) (a b : α) :
    Fin.foldl k (fun acc i => Scalar.maximum acc (e i)) b ≤ a ↔ b ≤ a ∧ ∀ i, e i ≤ a := by
  induction k with
  | zero => simp
  | succ k ih => rw [Fin.foldl_succ_last, Scalar.maximum_eq_max, max_le_iff, ih, Fin.forall_fin_succ', and_assoc]

/-- The largest of some scores is the least one that none is above. -/
theorem peak_le_iff [OrderedScalar α] (x : Tensor α [n + 1]) (a : α) : x.peak ≤ a ↔ ∀ i, x.entry i ≤ a := by
  rw [Fin.forall_fin_succ]
  exact foldl_maximum_le_iff n (fun i => x.entry i.succ) a (x.entry 0)

theorem peak_permute [OrderedScalar α] : {n : Nat} → (p : Equiv.Perm (Fin n)) → (x : Tensor α [n]) →
    (x.permute p).peak = x.peak
  | 0, _, _ => rfl
  -- The fold of a row in another order is another one, so the two are compared by what they are at most.
  | n + 1, p, x => eq_of_forall_ge_iff fun a => by
      simp only [peak_le_iff, entry_permute]
      exact Equiv.forall_congr_right p (q := fun i => x.entry i ≤ a)

/-- The softmax of scores in another order. -/
theorem softmax_permute [OrderedScalar α] (x : Tensor α [n]) : (x.permute p).softmax = x.softmax.permute p :=
  ext_entry fun i => by
    simp only [entry_softmax, entry_permute, peak_permute]
    rw [Equiv.sum_comp p fun j => Elementary.exp (x.entry j - x.peak)]

end Tensor

/-! ## One head -/

namespace Attention

variable {α : Type} [OrderedScalar α] {n d v : Nat} (p : Equiv.Perm (Fin n))

theorem scores_permute (root : α) (query key : Tensor α [n, d]) :
    scores root (query.permute p) (key.permute p) = (scores root query key).permuteBoth p :=
  ext_matrix fun i j => by
    simp only [scores, row_permuteBoth, entry_permute, row_map, entry_map, entry_product, row_permute, entry_transpose]

/-- Weights come in the order of the queries, and each among them in that of the keys. -/
theorem weights_permute (query key : Tensor α [n, d]) :
    weights (query.permute p) (key.permute p) = (weights query key).permuteBoth p :=
  ext_row fun i => by
    simp only [weights, scores_permute, row_mapRows, row_permuteBoth, softmax_permute]

/-- An answer is a sum over positions, in whatever order. -/
theorem answer_permute (w : Tensor α [n, n]) (value : Tensor α [n, v]) :
    answer (w.permuteBoth p) none (value.permute p) = (answer w none value).permute p :=
  ext_matrix fun i j => by
    simp only [answer, Dropout.masked, row_permute, entry_product, row_permuteBoth, entry_permute]
    exact Equiv.sum_comp p fun l => (w.row (p i)).entry l * (value.row l).entry j

end Attention

/-! ## Many heads -/

namespace MultiHeadAttention

variable {α : Type} [OrderedScalar α] {d h k v s : Nat} (p : Equiv.Perm (Fin s))

theorem heads_permute (a : Affine α d (h * k)) (x : Tensor α [s, d]) :
    heads a (x.permute p) = mapRows (permute p) (heads a x) := by
  rw [heads, heads, mapRows_permute, splitHeads_permute]

theorem answers_permute (query key : Tensor α [h, s, k]) (value : Tensor α [h, s, v]) :
    answers (mapRows (permute p) query) (mapRows (permute p) key) none (mapRows (permute p) value) =
      mapRows (permute p) (answers query key none value) :=
  ext_row fun a => by
    simp only [answers, row_ofFn, row_mapRows, Attention.weights_permute]
    exact Attention.answer_permute p _ _

variable (l : MultiHeadAttention α d h k v) (x : Tensor α [s, d])

theorem output_permute : l.output (l.trace none (x.permute p)) = (l.output (l.trace none x)).permute p := by
  rw [output_trace, output_trace, heads_permute, heads_permute, heads_permute, answers_permute, mergeHeads_permute,
    mapRows_permute]

theorem attention_permute :
    (l.trace none (x.permute p)).attention = mapRows (permuteBoth p) (l.trace none x).attention :=
  ext_row fun a => by
    have hrow (x : Tensor α [s, d]) : (l.trace none x).attention.row a =
        Attention.weights ((heads l.weights.query x).row a) ((heads l.weights.key x).row a) := row_ofFn _ a
    rw [hrow, row_mapRows, hrow, heads_permute, heads_permute, row_mapRows, row_mapRows, Attention.weights_permute]

end MultiHeadAttention

/-! ## Blocks -/

namespace TransformerBlock

section Rows

variable {α : Type} [Scalar α] {d h k f s : Nat}

/-- The rows of a sequence normalized. -/
def normalizedRows (l : LayerNorm α [d]) (x : Tensor α [s, d]) : Tensor α [s, d] := x.mapRows fun r => l.output (l.trace r)

/-- The rows of a sequence through the feed-forward network. -/
def fedRows (l : FeedForward α d f) (x : Tensor α [s, d]) : Tensor α [s, d] := x.mapRows fun r => l.output (l.trace r)

/-- The rows of a sequence after the first of the two sums. -/
def middle (b : TransformerBlock α d h k f) (x : Tensor α [s, d]) : Tensor α [s, d] :=
  normalizedRows b.norm1 (x.add (b.attention.output (b.attention.trace none x)))

/-- Without masks a block is two sums, each of them normalized row by row. -/
theorem output_trace (b : TransformerBlock α d h k f) (x : Tensor α [s, d]) : b.output (b.trace ⟨none, none, none⟩ x) =
    normalizedRows b.norm2 ((b.middle x).add (fedRows b.feedForward (b.middle x))) := by
  have hrows {T : Type} (trace : Tensor α [d] → T) (output : T → Tensor α [d]) (y : Tensor α [s, d]) :
      (ofFn fun t => output (entry (ofEntries fun t => trace (y.row t)) t)) = y.mapRows fun r => output (trace r) :=
    ext_row fun t => by rw [row_ofFn, entry_ofEntries, row_mapRows]
  simp only [output, trace, normalized, Dropout.masked, hrows]
  rfl

end Rows

variable {α : Type} [OrderedScalar α] {d h k f s : Nat} (p : Equiv.Perm (Fin s)) (b : TransformerBlock α d h k f)
  (x : Tensor α [s, d])

theorem middle_permute : b.middle (x.permute p) = (b.middle x).permute p := by
  rw [middle, middle, MultiHeadAttention.output_permute, add_permute, normalizedRows, normalizedRows, mapRows_permute]

theorem output_permute :
    b.output (b.trace ⟨none, none, none⟩ (x.permute p)) = (b.output (b.trace ⟨none, none, none⟩ x)).permute p := by
  rw [output_trace, output_trace, middle_permute, fedRows, fedRows, mapRows_permute, add_permute, normalizedRows,
    normalizedRows, mapRows_permute]

end TransformerBlock

/-! ## Batches -/

namespace AnyTensor

variable {α β T : Type} {n : Nat} {s t : Dims}

/-- What is put out of every trace of a batch. -/
theorem join_map_traces (trace : Tensor α s → T) (output : T → Tensor β t) (x : Tensor α (n :: s)) :
    (AnyTensor.map output ⟨[n], Tensor.map trace (s := [n]) x⟩).join = ⟨n :: t, x.mapRows fun a => output (trace a)⟩ :=
  (join_map_map trace output ⟨[n], x⟩).trans (join_map_one _ x)

end AnyTensor

namespace Operator

variable {α : Type} [Scalar α] {b d h k s : Nat}

/-- Without masks the sequences of a batch attend one by one, and leave their weights. -/
theorem forward_attention {v : Nat} (c : Cell α (MultiHeadAttention α d h k v) (MultiHeadAttention.BatchTrace α d h k v))
    (x : Tensor α [b, s, d]) (stream : Stream) : ∃ left : Operator α,
      (attention c).forward false ⟨[b, s, d], x⟩ stream =
        ((.ok ⟨[b, s, d], x.mapRows fun a => c.layer.output (c.layer.trace none a)⟩, left), stream) ∧
      left.attention? = some ⟨[b, h, s, s], x.mapRows fun a => (c.layer.trace none a).attention⟩ := by
  have hforward : c.layer.forwardBatch false ⟨[b, s, d], x⟩ stream =
      (.ok (⟨[b, s, d], x.mapRows fun a => c.layer.output (c.layer.trace none a)⟩,
        ⟨s, [b], Tensor.map (c.layer.trace none) (s := [b]) x⟩), stream) := by
    rw [MultiHeadAttention.forwardBatch, AnyTensor.sequences?_one]
    simp only [Dropout.masks?_of_quiet (Dropout.isActive_inference c.layer.dropout), run_bind, run_pure, zipWith_fill,
      ← AnyTensor.join_map_traces]
  refine ⟨_, by rw [forward, run_bind, hforward]; rfl, ?_⟩
  exact congrArg some (AnyTensor.join_map_traces (c.layer.trace none) (·.attention) x)

/-- Without masks the sequences of a batch go through a block one by one, and leave the weights of its attention. -/
theorem forward_transformerBlock {f : Nat} (c : Cell α (TransformerBlock α d h k f) (TransformerBlock.BatchTrace α d h k f))
    (x : Tensor α [b, s, d]) (stream : Stream) : ∃ left : Operator α,
      (transformerBlock c).forward false ⟨[b, s, d], x⟩ stream =
        ((.ok ⟨[b, s, d], x.mapRows fun a => c.layer.output (c.layer.trace ⟨none, none, none⟩ a)⟩, left), stream) ∧
      left.attention? = some ⟨[b, h, s, s], x.mapRows fun a => (c.layer.attention.trace none a).attention⟩ := by
  have hforward : c.layer.forwardBatch false ⟨[b, s, d], x⟩ stream =
      (.ok (⟨[b, s, d], x.mapRows fun a => c.layer.output (c.layer.trace ⟨none, none, none⟩ a)⟩,
        ⟨s, [b], Tensor.map (c.layer.trace ⟨none, none, none⟩) (s := [b]) x⟩), stream) := by
    rw [TransformerBlock.forwardBatch, AnyTensor.sequences?_one]
    simp only [TransformerBlock.masks, Dropout.masks?_of_quiet (Dropout.isActive_inference c.layer.dropout), run_bind, run_pure,
      zipWith_fill, map_fill, ← AnyTensor.join_map_traces]
  refine ⟨_, by rw [forward, run_bind, hforward]; rfl, ?_⟩
  exact congrArg some (AnyTensor.join_map_traces (c.layer.trace ⟨none, none, none⟩) (·.attention.attention) x)

/-- Outside of training an operator passes on sequences with their positions in another order in that order, and leaves
the weights of its heads in that order on both of their last axes. -/
def Permutes (o : Operator α) (d h : Nat) : Prop :=
  ∀ {b s : Nat} (p : Equiv.Perm (Fin s)) (x : Tensor α [b, s, d]) (stream : Stream),
    ∃ (y : Tensor α [b, s, d]) (w : Tensor α [b, h, s, s]) (left left' : Operator α),
      o.forward false ⟨_, x⟩ stream = ((.ok ⟨_, y⟩, left), stream) ∧ left.attention? = some ⟨_, w⟩ ∧
      o.forward false ⟨_, x.mapRows (permute p)⟩ stream = ((.ok ⟨_, y.mapRows (permute p)⟩, left'), stream) ∧
      left'.attention? = some ⟨_, w.mapRows (mapRows (permuteBoth p))⟩

/-- An operator that runs over the sequences of a batch one by one permutes what it passes on if it permutes one. -/
theorem permutes_of_sequences {o : Operator α} (F : {s : Nat} → Tensor α [s, d] → Tensor α [s, d])
    (W : {s : Nat} → Tensor α [s, d] → Tensor α [h, s, s])
    (hforward : ∀ {b s : Nat} (x : Tensor α [b, s, d]) (stream : Stream), ∃ left : Operator α,
      o.forward false ⟨[b, s, d], x⟩ stream = ((.ok ⟨[b, s, d], x.mapRows F⟩, left), stream) ∧
      left.attention? = some ⟨[b, h, s, s], x.mapRows W⟩)
    (hF : ∀ {s : Nat} (p : Equiv.Perm (Fin s)) (a : Tensor α [s, d]), F (a.permute p) = (F a).permute p)
    (hW : ∀ {s : Nat} (p : Equiv.Perm (Fin s)) (a : Tensor α [s, d]), W (a.permute p) = (W a).mapRows (permuteBoth p)) :
    o.Permutes d h := by
  intro b s p x stream
  obtain ⟨left, hplain, hleft⟩ := hforward x stream
  obtain ⟨left', hpermuted, hleft'⟩ := hforward (x.mapRows (permute p)) stream
  have hrows : (x.mapRows (permute p)).mapRows F = (x.mapRows F).mapRows (permute p) :=
    ext_row fun i => by simp only [row_mapRows, hF]
  have hweights : (x.mapRows (permute p)).mapRows W = (x.mapRows W).mapRows (mapRows (permuteBoth p)) :=
    ext_row fun i => by simp only [row_mapRows, hW]
  rw [hrows] at hpermuted
  rw [hweights] at hleft'
  exact ⟨_, _, left, left', hplain, hleft, hpermuted, hleft'⟩

/-- Self-attention knows no order, alone or in a block. -/
theorem attends_permuted {α : Type} [OrderedScalar α] {d h k : Nat} :
    (∀ {v : Nat} (c : Cell α (MultiHeadAttention α d h k v) (MultiHeadAttention.BatchTrace α d h k v)),
      (attention c).Permutes d h) ∧
    ∀ {f : Nat} (c : Cell α (TransformerBlock α d h k f) (TransformerBlock.BatchTrace α d h k f)),
      (transformerBlock c).Permutes d h :=
  ⟨fun c => permutes_of_sequences _ _ (forward_attention c) (fun p a => c.layer.output_permute p a)
      fun p a => c.layer.attention_permute p a,
    fun c => permutes_of_sequences _ _ (forward_transformerBlock c) (fun p a => c.layer.output_permute p a)
      fun p a => c.layer.attention.attention_permute p a⟩

end Operator

end LayerStack
