import LayerStack.Proofs.Operator.Inference
import LayerStack.Proofs.Operator.Made
import LayerStack.Proofs.Tensor.Sample

/-!
# LayerStack.Proofs.Operator.Sample

Outside of training an operator treats every sample of a batch by itself.

An operator works on families: of rows, of images, of sequences.  Whatever else it asks of a batch, it asks of the axes of
a sample, or of the entries one by one.  So what it passes on is one function of a sample, run over all of them
(`sampleWise_forward`).  Samples need not be such as the operator takes, but they have as many axes as those.
-/

namespace LayerStack

variable {α : Type} {s : Dims}

open AnyTensor

/-! ## Rows -/

/-- The members of a family, traced and put out one by one. -/
theorem toOption_traced {u v : Dims} {T : Type} (trace : Tensor α u → T) (output : T → Tensor α v)
    (members : Option (AnyTensor (Tensor α u))) :
    (((RunError.fit members).bind fun xs =>
      .ok (((xs.map trace).map output).join, xs.map trace)).map Prod.fst).toOption =
      members.map fun xs => (xs.map fun a => output (trace a)).join := by
  cases members with
  | none => rfl
  | some xs => exact congrArg some (join_map_map trace output xs)

variable [Scalar α]

/-- Rows go through a dense layer one by one. -/
theorem Dense.sampleWise {m n : Nat} (l : Dense α m n) (hs : s ≠ []) :
    SampleWise s s.length fun x => ((l.forwardBatch x).map Prod.fst).toOption := by
  have hlength : 1 ≤ s.length := List.length_pos_iff.mpr hs
  exact sampleWise_blocks (fun row => l.output (l.trace row)) hlength (Nat.sub_add_cancel hlength) fun _ =>
    toOption_traced l.trace l.output _

namespace LayerNorm

variable {n : Nat}

theorem sampleWise_normalizeRows (l : LayerNorm α [n]) (hs : s ≠ []) :
    SampleWise s s.length fun x => ((l.normalizeRows x).map Prod.fst).toOption := by
  have hlength : 1 ≤ s.length := List.length_pos_iff.mpr hs
  exact sampleWise_blocks (fun row => l.output (l.trace row)) hlength (Nat.sub_add_cancel hlength) fun _ =>
    toOption_traced l.trace l.output _

/-- Rows of the declared width are normalized, and no others. -/
theorem forwardBatch_eq (l : LayerNorm α [n]) (x : AnyTensor α) : ((l.forwardBatch x).map Prod.fst).toOption =
    if (Value.int x.lastAxis).same l.declared && l.bounded then ((l.normalizeRows x).map Prod.fst).toOption
    else none := by
  unfold forwardBatch
  cases (Value.int x.lastAxis).same l.declared <;> cases l.bounded <;> rfl

theorem sampleWise (l : LayerNorm α [n]) (hs : s ≠ []) :
    SampleWise s s.length fun x => ((l.forwardBatch x).map Prod.fst).toOption := by
  -- The last axis of a batch is that of a sample.
  have hlast {k : Nat} (x : Tensor α (k :: s)) : lastAxis ⟨k :: s, x⟩ = s.getLastD 1 := by
    obtain ⟨a, s, rfl⟩ := List.exists_cons_of_ne_nil hs
    rfl
  cases htaken : (Value.int (s.getLastD 1 : Nat)).same l.declared && l.bounded with
  | true => exact (sampleWise_normalizeRows l hs).congr fun x => by rw [forwardBatch_eq, hlast, htaken, if_pos rfl]
  | false => exact sampleWise_none _ fun x => by rw [forwardBatch_eq, hlast, htaken]; rfl

end LayerNorm

/-! ## Tables -/

namespace Embedding

variable {v d : Nat}

theorem toOption_tokens? (x : AnyTensor α) : (tokens? x).toOption =
    ((some (x.map Scalar.whole?)).bind fun whole =>
      if whole.foldl (fun ok n => ok && n.isSome) true then some whole else none).bind fun whole =>
        some (whole.map fun n => Word.narrow (n.getD 0)) := by
  rw [Option.bind_some, tokens?]
  unfold AnyTensor.foldl
  cases (x.map Scalar.whole?).value.foldl (fun ok n => ok && n.isSome) true <;> rfl

theorem sampleWise_tokens? (s : Dims) : SampleWise s s.length fun x : AnyTensor α => (tokens? x).toOption := by
  have hwhole := sampleWise_entries (Scalar.whole? : α → Option Int) s
  have htest (t : Dims) (ht : t.length = s.length) := ht ▸ sampleWise_test (Option.isSome : Option Int → Bool) t
  have hnarrow (t : Dims) (ht : t.length = s.length) :=
    ht ▸ sampleWise_entries (fun n : Option Int => Word.narrow (n.getD 0)) t
  exact ((hwhole.bind htest).bind hnarrow).congr fun x => toOption_tokens? _

theorem toNat_lt_of_mem {n : Int} (h : 0 ≤ n ∧ n < v) : n.toNat < v := by omega

/-- The row of an integer, if the table has one for it. -/
def row? (v : Nat) (n : Int) : Option (Fin v) :=
  if h : 0 ≤ n ∧ n < v then some ⟨n.toNat, toNat_lt_of_mem h⟩ else none

/-- The row of a token hangs on that token alone. -/
theorem toOption_inRange? (v : Nat) (tokens : AnyTensor Int) : (inRange? v tokens).toOption = tokens.traverse? (row? v) := by
  unfold inRange?
  split
  · next rows hrows => exact hrows.symm
  · next hrows => exact hrows.symm

/-- A token that is no row of the table stops its own sample, and so the batch. -/
theorem sampleWise_inRange? (t : Dims) :
    SampleWise t t.length fun tokens : AnyTensor Int => (inRange? v tokens).toOption :=
  (sampleWise_traverse (row? v) t).congr fun _ => toOption_inRange? v _

theorem sampleWise (l : Embedding α v d) :
    SampleWise s (s.length + 1) fun x => ((l.forwardBatch x).map Prod.fst).toOption := by
  have hrange (t : Dims) (ht : t.length = s.length) :
      SampleWise t s.length fun tokens => (inRange? v tokens).toOption := ht ▸ sampleWise_inRange? t
  have hlookup (t : Dims) (ht : t.length = s.length) :
      SampleWise t (s.length + 1) fun rows => some (l.lookup rows).join :=
    ht ▸ sampleWise_join (fun i => l.table.row i) t
  refine (((sampleWise_tokens? s).bind hrange).bind hlookup).congr fun x => ?_
  unfold forwardBatch
  cases tokens? ⟨_ :: s, x⟩ with
  | error e => rfl
  | ok tokens =>
      show (((inRange? v tokens).bind fun rows => .ok ((l.lookup rows).join, rows)).map Prod.fst).toOption =
        (inRange? v tokens).toOption.bind _
      cases inRange? v tokens <;> rfl

end Embedding

namespace PositionTable

variable {n d : Nat}

/-- A batch of sequences of the width that the table fits is one with the rows for the length of a sequence. -/
theorem forwardBatch_eq (p : PositionTable α n d) {b length width : Nat} (x : Tensor α [b, length, width]) :
    ((p.forwardBatch ⟨[b, length, width], x⟩).map Prod.fst).toOption =
      if Number.compare? (.int width) p.fits = some .eq then
        (p.encoding? length).toOption.bind fun rows =>
          (blocks? ⟨[b, length, width], x⟩ [length, d]).map fun sequences => (sequences.map fun s => s.add rows).join
      else none := by
  have hlast : lastAxis ⟨[b, length, width], x⟩ = width := rfl
  unfold forwardBatch
  rw [hlast]
  split
  · simp only [List.reverse_cons, List.reverse_nil, List.nil_append, List.cons_append]
    cases p.encoding? length with
    | error e => rfl
    | ok rows => cases blocks? ⟨[b, length, width], x⟩ [length, d] <;> rfl
  · rfl

/-- The rows that are added are the same for all sequences of a length. -/
theorem sampleWise (p : PositionTable α n d) (length width : Nat) :
    SampleWise [length, width] 2 fun x => ((p.forwardBatch x).map Prod.fst).toOption := by
  by_cases hfits : Number.compare? (.int width) p.fits = some .eq
  · cases hrows : p.encoding? length with
    | ok rows =>
        refine sampleWise_blocks (fun a => Tensor.add a rows) le_rfl rfl fun x => ?_
        rw [forwardBatch_eq, if_pos hfits, hrows]
        rfl
    | error e => exact sampleWise_none _ fun x => by rw [forwardBatch_eq, if_pos hfits, hrows]; rfl
  · exact sampleWise_none _ fun x => by rw [forwardBatch_eq, if_neg hfits]

end PositionTable

/-! ## Images -/

namespace Conv2D

variable {z : ConvSizes}

/-- Images are convolved if they have the channels of the kernel and there is a window over them. -/
theorem forwardBatch_eq (l : Conv2D α z) {b h w c : Nat} (x : Tensor α [b, h, w, c]) :
    ((l.forwardBatch ⟨[b, h, w, c], x⟩).map Prod.fst).toOption =
      if c = z.channels ∧ z.grid.fits h w then
        (blocks? ⟨[b, h, w, c], x⟩ (z.imageDims h w)).map fun images =>
          (images.map fun image => l.output (l.trace image)).join
      else none := by
  have hlast : lastAxis ⟨[b, h, w, c], x⟩ = c := rfl
  unfold forwardBatch
  rw [hlast]
  by_cases hchannels : c = z.channels
  · rw [if_pos hchannels]
    cases hfits : z.grid.fits h w with
    | true =>
        rw [if_pos ⟨hchannels, rfl⟩]
        simp only [hfits]
        cases blocks? ⟨[b, h, w, c], x⟩ (z.imageDims h w) with
        | none => rfl
        | some images => exact congrArg some (join_map_map _ _ images)
    | false =>
        rw [if_neg (by simp)]
        simp only [hfits]
        cases blocks? ⟨[b, h, w, c], x⟩ (z.imageDims h w) <;> rfl
  · rw [if_neg hchannels, if_neg fun htaken => hchannels htaken.1]
    rfl

theorem sampleWise (l : Conv2D α z) (h w c : Nat) :
    SampleWise [h, w, c] 3 fun x => ((l.forwardBatch x).map Prod.fst).toOption := by
  by_cases htaken : c = z.channels ∧ z.grid.fits h w
  · refine sampleWise_blocks (u := z.imageDims h w) (fun image => l.output (l.trace image)) le_rfl rfl fun x => ?_
    rw [forwardBatch_eq, if_pos htaken]
  · exact sampleWise_none _ fun x => by rw [forwardBatch_eq, if_neg htaken]

end Conv2D

namespace WindowGrid

variable (g : WindowGrid)

/-- Where no cell is a word, none is to be padded. -/
theorem sampleWise_padsWords (s : Dims) :
    SampleWise s s.length fun x : AnyTensor α => if g.padsWords x then none else some x := by
  cases hpadding : g.padding with
  | valid =>
      refine (sampleWise_id s).congr fun x => ?_
      rw [padsWords, hpadding]
      rfl
  | same =>
      refine (sampleWise_test (fun a : α => !Scalar.isWord a) s).congr fun x => ?_
      have hwords (y : AnyTensor α) : g.padsWords y = !y.foldl (fun ok a => ok && !Scalar.isWord a) true := by
        rw [padsWords, hpadding]
        exact Tensor.foldl_or Scalar.isWord _ y.value false
      rw [hwords]
      cases foldl (fun ok a => ok && !Scalar.isWord a) true ⟨_, x⟩ <;> rfl

/-- Images are pooled if none of their words are to be padded and there is a window over them. -/
theorem poolBatch_eq {b h w c : Nat} (x : Tensor α [b, h, w, c]) :
    ((g.poolBatch ⟨[b, h, w, c], x⟩).map Prod.fst).toOption =
      (if g.padsWords ⟨[b, h, w, c], x⟩ then none else some ⟨[b, h, w, c], x⟩).bind fun x =>
        if g.fits h w ∧ g.taps ≠ [] then
          (blocks? x [h, w, c]).map fun images =>
            (images.map fun image => pooled (g.taken Scalar.least? image)).join
        else none := by
  obtain ⟨images, himages⟩ : ∃ images, blocks? ⟨[b, h, w, c], x⟩ [h, w, c] = some images :=
    ⟨_, blocks?_mk [b] [h, w, c] x⟩
  unfold poolBatch
  cases hpads : g.padsWords ⟨[b, h, w, c], x⟩ with
  | true =>
      simp only [himages]
      rfl
  | false =>
      rw [if_neg (by simp), Option.bind_some, himages]
      simp only [himages]
      by_cases htaken : g.fits h w ∧ g.taps ≠ []
      · rw [if_pos htaken, Option.map_some, ← AnyTensor.map_map]
        exact congrArg (fun result => (Except.map Prod.fst result).toOption) (if_pos htaken)
      · rw [if_neg htaken]
        exact congrArg (fun result => (Except.map Prod.fst result).toOption) (if_neg htaken)

theorem sampleWise (h w c : Nat) :
    SampleWise [h, w, c] 3 fun x : AnyTensor α => ((g.poolBatch x).map Prod.fst).toOption := by
  have hnext (t : Dims) (ht : t.length = 3) : SampleWise t 3 fun x : AnyTensor α =>
      if g.fits h w ∧ g.taps ≠ [] then
        (blocks? x [h, w, c]).map fun images => (images.map fun image => pooled (g.taken Scalar.least? image)).join
      else none := by
    by_cases htaken : g.fits h w ∧ g.taps ≠ []
    · have hrank : t.length - 3 + 3 = 3 := by rw [ht]
      refine sampleWise_blocks (fun image : Tensor α [h, w, c] => pooled (g.taken Scalar.least? image)) ht.ge hrank
        fun x => ?_
      rw [if_pos htaken]
    · exact sampleWise_none _ fun x => if_neg htaken
  exact ((g.sampleWise_padsWords [h, w, c]).bind hnext).congr fun x => g.poolBatch_eq x

end WindowGrid

/-! ## Sequences -/

omit [Scalar α] in
/-- A batch of sequences is the family of them. -/
theorem sequences?_mk {b length width : Nat} (x : Tensor α [b, length, width]) (d : Nat) :
    sequences? ⟨[b, length, width], x⟩ d =
      (blocks? ⟨[b, length, width], x⟩ [length, d]).map fun xs => ⟨length, xs⟩ := rfl

/-- Without masks a sequence attends to itself alone. -/
theorem MultiHeadAttention.sampleWise {d h k v : Nat} (l : MultiHeadAttention α d h k v) (length width : Nat)
    (stream : Stream) :
    SampleWise [length, width] 2 fun x => ((l.forwardBatch false x stream).1.map Prod.fst).toOption := by
  refine sampleWise_blocks (fun a : Tensor α [length, d] => l.output (l.trace none a)) le_rfl rfl fun {b} x => ?_
  unfold forwardBatch
  rw [sequences?_mk]
  cases blocks? ⟨[b, length, width], x⟩ [length, d] with
  | none => rfl
  | some sequences =>
      simp only [Option.map_some, Dropout.masks?_of_quiet (Dropout.isActive_inference l.dropout), run_bind, run_pure,
        Tensor.zipWith_fill]
      exact congrArg some (join_map_map (l.trace none) l.output sequences)

theorem TransformerBlock.sampleWise {d h k f : Nat} (l : TransformerBlock α d h k f) (length width : Nat)
    (stream : Stream) :
    SampleWise [length, width] 2 fun x => ((l.forwardBatch false x stream).1.map Prod.fst).toOption := by
  refine sampleWise_blocks (fun a : Tensor α [length, d] => l.output (l.trace ⟨none, none, none⟩ a)) le_rfl rfl
    fun {b} x => ?_
  unfold forwardBatch
  rw [sequences?_mk]
  cases blocks? ⟨[b, length, width], x⟩ [length, d] with
  | none => rfl
  | some sequences =>
      simp only [Option.map_some, masks, Dropout.masks?_of_quiet (Dropout.isActive_inference l.dropout), run_bind,
        run_pure, Tensor.zipWith_fill, Tensor.map_fill]
      exact congrArg some (join_map_map (l.trace ⟨none, none, none⟩) l.output sequences)

/-! ## Axes taken away -/

theorem Flatten.sampleWise (s : Dims) : SampleWise s 1 fun x : AnyTensor α => (Flatten.forwardBatch x).toOption :=
  sampleWise_map (fun a => a.reshape [Dims.volume s]) rfl fun x =>
    congrArg some (join_map_split (fun a : Tensor α s => a.reshape [Dims.volume s]) x)

theorem Average.sampleWise (length : Nat) (s : Dims) :
    SampleWise (length :: s) s.length fun x : AnyTensor α => (Average.forwardBatch x).toOption :=
  sampleWise_map Average.forward rfl fun x => congrArg some (join_map_split (Average.forward (n := length) (s := s)) x)

/-! ## Operators -/

namespace Operator

variable {config : LayerConfig} {shape out : Shape} {o : Operator α}

omit [Scalar α] in
/-- A cell passes on what its layer makes of a batch. -/
theorem sampleWise_pass {L T : Type} {rank : Nat} {result : AnyTensor α → Except RunError (AnyTensor α × T)}
    (c : Cell α L T) (h : SampleWise s rank fun x => ((result x).map Prod.fst).toOption) :
    SampleWise s rank fun x => (c.pass (result x)).1.toOption :=
  h.congr fun _ => congrArg Except.toOption (fst_pass c _)

theorem sampleWise_maxPool2D (grid : WindowGrid) (trace : Option (WindowGrid.PoolTrace grid)) (h w c : Nat)
    (stream : Stream) : SampleWise [h, w, c] 3 fun x : AnyTensor α =>
      ((Operator.maxPool2D grid trace).forward false x stream).1.1.toOption := by
  refine (grid.sampleWise h w c).congr fun {n} x => ?_
  rw [forward]
  cases grid.poolBatch ⟨[n, h, w, c], x⟩ <;> rfl

/-- What an operator passes on outside of training is, sample by sample, what one function makes of a sample. -/
theorem sampleWise_forward (hmade : MadeFor config shape o) (hmakes : LayerConfig.Makes config shape out)
    (hne : shape ≠ []) (hs : s.length = shape.length) (stream : Stream) :
    SampleWise s out.length fun x => (o.forward false x stream).1.1.toOption := by
  have hs' : s ≠ [] := List.length_pos_iff.mp (hs ▸ List.length_pos_iff.mpr hne)
  cases hmakes with
  | dense =>
      cases hmade with
      | dense cell => exact hs ▸ sampleWise_pass cell (cell.layer.sampleWise hs')
  | conv2d =>
      obtain ⟨h, w, c, rfl⟩ := List.length_eq_three.mp hs
      cases hmade with
      | conv2d cell => exact sampleWise_pass cell (cell.layer.sampleWise h w c)
  | maxpool2d =>
      obtain ⟨h, w, c, rfl⟩ := List.length_eq_three.mp hs
      cases hmade with
      | maxpool2d trace => exact sampleWise_maxPool2D _ trace h w c stream
  | dropout =>
      cases hmade with
      | dropout rate mask => exact hs ▸ sampleWise_id s
  | flatten =>
      cases hmade with
      | flatten dims => exact Flatten.sampleWise s
  | embedding =>
      obtain ⟨length, rfl⟩ := List.length_eq_one_iff.mp hs
      cases hmade with
      | embedding cell => exact sampleWise_pass cell (cell.layer.sampleWise (s := [length]))
  | multiHeadAttention =>
      obtain ⟨length, width, rfl⟩ := List.length_eq_two.mp hs
      cases hmade with
      | multiHeadAttention cell => exact sampleWise_pass cell (cell.layer.sampleWise length width stream)
  | layerNorm =>
      cases hmade with
      | layerNorm cell => exact hs ▸ sampleWise_pass cell (cell.layer.sampleWise hs')
  | positionalEncoding =>
      obtain ⟨length, width, rfl⟩ := List.length_eq_two.mp hs
      cases hmade with
      | positionalEncoding cell => exact sampleWise_pass cell (cell.layer.sampleWise length width)
  | transformerBlock =>
      obtain ⟨length, width, rfl⟩ := List.length_eq_two.mp hs
      cases hmade with
      | transformerBlock cell => exact sampleWise_pass cell (cell.layer.sampleWise length width stream)
  | globalAvgPool1d =>
      obtain ⟨length, width, rfl⟩ := List.length_eq_two.mp hs
      cases hmade with
      | globalAvgPool1d dims => exact Average.sampleWise length [width]

end Operator

end LayerStack
