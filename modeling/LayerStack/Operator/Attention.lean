import LayerStack.Operator.Dense
import LayerStack.Operator.Dropout
import LayerStack.Tensor.Product

/-!
# LayerStack.Operator.Attention

Attention of a sequence over a sequence, and attention of many heads of a sequence over itself.

Each position asks with a query; the scores of the query against all keys, over the root of the key width, become
weights by softmax; the answer is the sum of the values under those weights.  Several heads do so side by side on slices
of the width: slice `a` of a row of `heads * size` numbers is its places `a * size`, …, `a * size + size - 1`.
-/

namespace LayerStack

/-! ## One head -/

namespace Attention

variable {α : Type} {q k d v : Nat}

/-- The scores of queries against keys. -/
def scores [Zero α] [Add α] [Mul α] [Div α] (root : α) (query : Tensor α [q, d]) (key : Tensor α [k, d]) :
    Tensor α [q, k] :=
  (query.product key.transpose).map (· / root)

/-- The root of the key width. -/
def root [NatCast α] [Elementary α] (d : Nat) : α := Elementary.sqrt (d : α)

/-- The weights of every query. -/
def weights [Scalar α] (query : Tensor α [q, d]) (key : Tensor α [k, d]) : Tensor α [q, k] :=
  (scores (root d) query key).mapRows Tensor.softmax

/-- The values summed under weights and a mask. -/
def answer [Zero α] [Add α] [Mul α] (weights : Tensor α [q, k]) (mask : Option (Tensor α [q, k]))
    (value : Tensor α [k, v]) : Tensor α [q, v] :=
  (Dropout.masked weights mask).product value

/-- The gradients of query, key and value. -/
structure Gradients (α : Type) (q k d v : Nat) where
  query : Tensor α [q, d]
  key : Tensor α [k, d]
  value : Tensor α [k, v]

/-- The gradient of the scores before the softmax. -/
def backwardScores [Zero α] [Add α] [Sub α] [Mul α] [Div α] (root : α) (weights : Tensor α [q, k])
    (mask : Option (Tensor α [q, k])) (value : Tensor α [k, v]) (cotangent : Tensor α [q, v]) : Tensor α [q, k] :=
  let inner := Dropout.masked (cotangent.product value.transpose) mask
  Tensor.ofFn fun i => (Tensor.softmaxBackward (inner.row i) (weights.row i)).map (· / root)

/-- The way back through an answer. -/
def backward [Zero α] [Add α] [Sub α] [Mul α] [Div α] (root : α) (query : Tensor α [q, d]) (key : Tensor α [k, d])
    (value : Tensor α [k, v]) (weights : Tensor α [q, k]) (mask : Option (Tensor α [q, k]))
    (cotangent : Tensor α [q, v]) : Gradients α q k d v :=
  let scores := backwardScores root weights mask value cotangent
  { query := scores.product key
    key := scores.transpose.product query
    value := (Dropout.masked weights mask).transpose.product cotangent }

/-! ### Along leading axes

Queries, keys and values may have any axes in front of those of a matrix, and any of them may be a row of numbers. -/

/-- The weights of queries among keys. -/
def weights? [Scalar α] (query key : AnyTensor α) : Option (AnyTensor α) := do
  let scores ← query.product? (← key.transpose?)
  return (scores.map (· / root query.lastAxis)).mapLast Tensor.softmax

/-- A tensor under a mask that it stretches to fit, if there is one. -/
def masked? [Mul α] (x : AnyTensor α) (mask : Option (AnyTensor α)) : Option (AnyTensor α) :=
  mask.elim (some x) fun m => x.zipWith? (· * ·) m

/-- The answers to queries, and their weights. -/
def attend? [Scalar α] (query key value : AnyTensor α) (mask : Option (AnyTensor α)) :
    Option (AnyTensor α × AnyTensor α) := do
  let weights ← weights? query key
  return (← (← masked? weights mask).product? value, weights)

/-- The gradients of queries, keys and values from that of the answers. -/
def attendBackward? [Scalar α] (query key value weights : AnyTensor α) (mask : Option (AnyTensor α))
    (cotangent : AnyTensor α) : Option (AnyTensor α × AnyTensor α × AnyTensor α) := do
  let values ← (← (← masked? weights mask).transpose?).product? cotangent
  let inner ← masked? (← cotangent.product? (← value.transpose?)) mask
  let scores := (← inner.zipLast? Tensor.softmaxBackward weights).map (· / root query.lastAxis)
  return (← scores.product? key, ← (← scores.transpose?).product? query, values)

end Attention

/-! ## Heads -/

namespace Tensor

variable {α : Type} {s h d : Nat}

/-- A place of slice `a` as a place of the whole width. -/
def slicePlace (a : Fin h) (j : Fin d) : Fin (h * d) :=
  ⟨a * d + j, by
    have hj := j.isLt
    have ha : (a.val + 1) * d ≤ h * d := Nat.mul_le_mul_right d a.isLt
    rw [Nat.add_mul, Nat.one_mul] at ha
    omega⟩

/-- The slice of a place of the whole width. -/
def placeSlice (p : Fin (h * d)) : Fin h × Fin d :=
  have hd : 0 < d := Nat.pos_of_ne_zero fun h0 => by
    have := p.isLt
    subst h0
    simp at this
  (⟨p / d, Nat.div_lt_of_lt_mul (Nat.mul_comm h d ▸ p.isLt)⟩, ⟨p % d, Nat.mod_lt _ hd⟩)

/-- The slices of a sequence, head by head. -/
def splitHeads (x : Tensor α [s, h * d]) : Tensor α [h, s, d] :=
  ofFn fun a => ofMatrix fun t j => (x.row t).entry (slicePlace a j)

/-- Heads side by side. -/
def mergeHeads (x : Tensor α [h, s, d]) : Tensor α [s, h * d] :=
  ofMatrix fun t p => ((x.row (placeSlice p).1).row t).entry (placeSlice p).2

end Tensor

/-! ## Many heads -/

/-- The weights of self-attention over rows of width `d`, with `h` heads of key width `k` and value width `v`. -/
structure AttentionWeights (α : Type) (d h k v : Nat) where
  query : Affine α d (h * k)
  key : Affine α d (h * k)
  value : Affine α d (h * v)
  output : Affine α (h * v) d

namespace AttentionWeights

variable {α : Type} {d h k v : Nat}

def zeroLike [Zero α] (w : AttentionWeights α d h k v) : AttentionWeights α d h k v :=
  ⟨w.query.zeroLike, w.key.zeroLike, w.value.zeroLike, w.output.zeroLike⟩

def add [Add α] (a b : AttentionWeights α d h k v) : AttentionWeights α d h k v :=
  ⟨a.query.add b.query, a.key.add b.key, a.value.add b.value, a.output.add b.output⟩

/-- The sum of gradients. -/
def sum [Zero α] [Add α] (w : AttentionWeights α d h k v) {lead : Dims}
    (gradients : Tensor (AttentionWeights α d h k v) lead) : AttentionWeights α d h k v :=
  gradients.foldl add w.zeroLike

instance : Weights (AttentionWeights α d h k v) α where
  named w := withPrefix "query" (Weights.named w.query) ++ withPrefix "key" (Weights.named w.key)
    ++ withPrefix "value" (Weights.named w.value) ++ withPrefix "output" (Weights.named w.output)
  change f w := ⟨Weights.change (f.under "query") w.query, Weights.change (f.under "key") w.key,
    Weights.change (f.under "value") w.value, Weights.change (f.under "output") w.output⟩

/-- Fresh weights. -/
def draw [Scalar α] (useBias : Bool) (d h k v : Nat) : Draw (AttentionWeights α d h k v) := do
  let query ← Affine.draw .glorotUniform useBias d (h * k)
  let key ← Affine.draw .glorotUniform useBias d (h * k)
  let value ← Affine.draw .glorotUniform useBias d (h * v)
  let output ← Affine.draw .glorotUniform useBias (h * v) d
  return ⟨query, key, value, output⟩

end AttentionWeights

/-- Self-attention of many heads; `dropout` is the rate of the mask on the attention weights. -/
structure MultiHeadAttention (α : Type) (d h k v : Nat) where
  dropout : α
  weights : AttentionWeights α d h k v

namespace MultiHeadAttention

variable {α : Type} {d h k v s : Nat}

/-- What is left of the attention of one sequence. -/
structure Trace (α : Type) (d h k v s : Nat) where
  input : Tensor α [s, d]
  query : Tensor α [h, s, k]
  key : Tensor α [h, s, k]
  value : Tensor α [h, s, v]
  attention : Tensor α [h, s, s]
  mask : Option (Tensor α [h, s, s])
  context : Tensor α [s, h * v]

/-- What is left of a batch of sequences. -/
structure BatchTrace (α : Type) (d h k v : Nat) where
  length : Nat
  sequences : AnyTensor (Trace α d h k v length)

/-- The mask of one head. -/
def headMask (mask : Option (Tensor α [h, s, s])) (a : Fin h) : Option (Tensor α [s, s]) := mask.map (·.row a)

def trace [Scalar α] (l : MultiHeadAttention α d h k v) (mask : Option (Tensor α [h, s, s])) (x : Tensor α [s, d]) :
    Trace α d h k v s :=
  let query := (x.mapRows l.weights.query.apply).splitHeads
  let key := (x.mapRows l.weights.key.apply).splitHeads
  let value := (x.mapRows l.weights.value.apply).splitHeads
  let attention : Tensor α [h, s, s] := Tensor.ofFn fun a => Attention.weights (query.row a) (key.row a)
  let context : Tensor α [h, s, v] :=
    Tensor.ofFn fun a => Attention.answer (attention.row a) (headMask mask a) (value.row a)
  ⟨x, query, key, value, attention, mask, context.mergeHeads⟩

def output [Zero α] [Add α] [Mul α] (l : MultiHeadAttention α d h k v) (t : Trace α d h k v s) : Tensor α [s, d] :=
  t.context.mapRows l.weights.output.apply

/-- The gradients of one affine map over the rows of a sequence. -/
def overRows [Zero α] [Add α] [Mul α] {m n : Nat} (a : Affine α m n) (cotangent : Tensor α [s, n])
    (x : Tensor α [s, m]) : Tensor α [s, m] × Affine α m n :=
  let gradients : Tensor (Affine α m n) [s] := Tensor.ofEntries fun t => a.gradient (cotangent.row t) (x.row t)
  (cotangent.mapRows a.backward, a.sum gradients)

/-- The gradients of the sequence and of the weights. -/
def backward [Scalar α] (l : MultiHeadAttention α d h k v) (t : Trace α d h k v s) (cotangent : Tensor α [s, d]) :
    Tensor α [s, d] × AttentionWeights α d h k v :=
  let (context, output) := overRows l.weights.output cotangent t.context
  let heads : Tensor α [h, s, v] := context.splitHeads
  let inner : Tensor (Attention.Gradients α s s k v) [h] := Tensor.ofEntries fun a =>
    Attention.backward (Attention.root k) (t.query.row a) (t.key.row a) (t.value.row a) (t.attention.row a)
      (headMask t.mask a) (heads.row a)
  let queries : Tensor α [h, s, k] := Tensor.ofFn fun a => (inner.entry a).query
  let keys : Tensor α [h, s, k] := Tensor.ofFn fun a => (inner.entry a).key
  let values : Tensor α [h, s, v] := Tensor.ofFn fun a => (inner.entry a).value
  let (x₁, query) := overRows l.weights.query queries.mergeHeads t.input
  let (x₂, key) := overRows l.weights.key keys.mergeHeads t.input
  let (x₃, value) := overRows l.weights.value values.mergeHeads t.input
  ((x₁.add x₂).add x₃, ⟨query, key, value, output⟩)

/-! ### Batches -/

/-- A batch of sequences through the layer, and what it leaves. -/
def forwardBatch [Scalar α] (l : MultiHeadAttention α d h k v) (training : Bool) (x : AnyTensor α) :
    Draw (Except RunError (AnyTensor α × BatchTrace α d h k v)) :=
  match x.sequences? d with
  | none => pure (.error (.attentionShape (.int d) x.dims))
  | some ⟨s, sequences⟩ => do
    let masks ← Dropout.masks? training l.dropout sequences.dims [h, s, s]
    let traces : AnyTensor (Trace α d h k v s) := ⟨sequences.dims, Tensor.zipWith l.trace masks sequences.value⟩
    return .ok ((traces.map fun t => l.output t).join, ⟨s, traces⟩)

/-- The gradient of the sequences and the sum of the gradients of the weights. -/
def backwardBatch [Scalar α] (l : MultiHeadAttention α d h k v) (t : BatchTrace α d h k v) (cotangent : AnyTensor α) :
    Except RunError (AnyTensor α × AttentionWeights α d h k v) := do
  let gs ← RunError.fit (cotangent.blocks? [t.length, d])
  let results ← RunError.fit (t.sequences.zipWith? (fun t g => l.backward t g) gs)
  return ((results.map (·.1)).join, l.weights.sum (results.map (·.2)).value)

/-- The attention weights of a batch. -/
def BatchTrace.attention (t : BatchTrace α d h k v) : AnyTensor α := (t.sequences.map (·.attention)).join

/-- A fresh layer. -/
def draw [Scalar α] (dropout : α) (useBias : Bool) (d h k v : Nat) : Draw (MultiHeadAttention α d h k v) := do
  return ⟨dropout, ← AttentionWeights.draw useBias d h k v⟩

end MultiHeadAttention

end LayerStack
