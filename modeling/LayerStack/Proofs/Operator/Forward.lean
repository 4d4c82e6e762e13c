import LayerStack.Operator
import LayerStack.Proofs.Outcome
import LayerStack.Proofs.Tensor.Family

/-!
# LayerStack.Proofs.Operator.Forward

The axes of a batch on its way forward, layer by layer.

For every kind of layer there are two statements.  One says which batches it takes and on which axes it puts its result
(`forwardBatch_of_dims`); the other says what is known of the axes of a batch that was taken, and of what it left for the
way back (`dims_of_forwardBatch`).  The second asks for no sizes: what was left decides the axes by itself.
-/

namespace LayerStack

variable {α : Type}

theorem fit_eq_ok {β : Type} {o : Option β} {b : β} : RunError.fit o = .ok b ↔ o = some b := by
  cases o <;> simp [RunError.fit]

/-- Of a result that fits something, the result is there. -/
theorem fit_some {β : Type} {o : Option β} {b : β} (h : o = some b) : RunError.fit o = .ok b := fit_eq_ok.mpr h

open AnyTensor

/-! ## Rows -/

namespace Dense

variable [Scalar α] {m n : Nat} {l : Dense α m n} {x y : AnyTensor α} {lead : Dims}

theorem forwardBatch_of_dims (l : Dense α m n) (h : x.dims = lead ++ [m]) :
    ∃ y t, l.forwardBatch x = .ok (y, t) ∧ y.dims = lead ++ [n] := by
  obtain ⟨rows, hrows, hdims⟩ := blocks?_of_dims h
  exact ⟨_, _, by rw [forwardBatch, fit_some hrows]; rfl, by simp [hdims]⟩

theorem dims_of_forwardBatch {t : AnyTensor (Trace α m n)} (h : l.forwardBatch x = .ok (y, t)) :
    x.dims = t.dims ++ [m] ∧ y.dims = t.dims ++ [n] := by
  simp only [forwardBatch, bind_eq_ok, pure_eq_ok, fit_eq_ok] at h
  obtain ⟨rows, hrows, h⟩ := h
  obtain ⟨rfl, rfl⟩ := Prod.mk.inj h
  exact ⟨dims_of_blocks? hrows, rfl⟩

end Dense

namespace FeedForward

variable [Scalar α] {d f : Nat} {l : FeedForward α d f} {x y : AnyTensor α}

theorem dims_of_forwardBatch {t : AnyTensor (Trace α d f)} (h : l.forwardBatch x = .ok (y, t)) :
    x.dims = t.dims ++ [d] ∧ y.dims = t.dims ++ [d] := by
  simp only [forwardBatch, bind_eq_ok, pure_eq_ok, fit_eq_ok] at h
  obtain ⟨rows, hrows, h⟩ := h
  obtain ⟨rfl, rfl⟩ := Prod.mk.inj h
  exact ⟨dims_of_blocks? hrows, rfl⟩

end FeedForward

/-- An integer is the same as itself. -/
theorem same_int (n : Int) : (Value.int n).same (.int n) = true := by
  simp [Value.same, Value.same?, Value.samePlain?, Value.overruns, Value.overruns.past, Value.unboxed, Value.samePlain,
    Value.compare?, Value.paired?, Value.quantity?, Value.number?, Value.isMachine, Number.compare?]

namespace LayerNorm

variable [Scalar α] {n : Nat} {x y : AnyTensor α} {lead : Dims}

theorem normalizeRows_of_dims (l : LayerNorm α [n]) (h : x.dims = lead ++ [n]) :
    ∃ y t, l.normalizeRows x = .ok (y, t) ∧ y.dims = lead ++ [n] := by
  obtain ⟨rows, hrows, hdims⟩ := blocks?_of_dims h
  exact ⟨_, _, by rw [normalizeRows, fit_some hrows]; rfl, by simp [hdims]⟩

theorem forwardBatch_of_dims {l : LayerNorm α [n]} (hbounded : l.bounded = true) (hdeclared : l.declared = .int n)
    (h : x.dims = lead ++ [n]) : ∃ y t, l.forwardBatch x = .ok (y, t) ∧ y.dims = lead ++ [n] := by
  obtain ⟨y, t, hrows, hdims⟩ := normalizeRows_of_dims l h
  have hlast : x.lastAxis = n := by simp [lastAxis, h]
  have hsame : (Value.int x.lastAxis).same l.declared = true := by rw [hlast, hdeclared, same_int]
  refine ⟨y, t, ?_, hdims⟩
  unfold forwardBatch
  rw [if_pos hsame, if_pos hbounded]
  exact hrows

theorem dims_of_normalizeRows {l : LayerNorm α [n]} {t : AnyTensor (Trace α n)} (h : l.normalizeRows x = .ok (y, t)) :
    x.dims = t.dims ++ [n] ∧ y.dims = t.dims ++ [n] := by
  simp only [normalizeRows, bind_eq_ok, pure_eq_ok, fit_eq_ok] at h
  obtain ⟨rows, hrows, h⟩ := h
  obtain ⟨rfl, rfl⟩ := Prod.mk.inj h
  exact ⟨dims_of_blocks? hrows, rfl⟩

/-- Only a normalization with a single axis takes batches. -/
theorem dims_of_forwardBatch : {s : Dims} → {l : LayerNorm α s} → {t : AnyTensor (Trace α (width s))} →
    l.forwardBatch x = .ok (y, t) → ∃ n, s = [n] ∧ x.dims = t.dims ++ [n] ∧ y.dims = t.dims ++ [n]
  | [n], l, t, h => by
      unfold forwardBatch at h
      split at h
      · split at h
        · exact ⟨n, rfl, dims_of_normalizeRows h⟩
        · contradiction
      · contradiction
  | [], l, t, h | _ :: _ :: _, l, t, h => by
      unfold forwardBatch at h
      split at h
      · split at h <;> contradiction
      · contradiction

end LayerNorm

/-! ## Tables -/

namespace Embedding

variable [Scalar α] {v d : Nat} {l : Embedding α v d} {x y : AnyTensor α}

/-- What an embedding says of a batch that are no tokens of its table. -/
def IsTokenFault (e : RunError) : Prop :=
  e = .notTokens ∨ ∃ vocabulary least greatest, e = .tokenRange vocabulary least greatest

theorem tokens?_cases (x : AnyTensor α) :
    tokens? x = .error .notTokens ∨ ∃ tokens, tokens? x = .ok tokens ∧ tokens.dims = x.dims := by
  simp only [tokens?]
  split
  · exact .inr ⟨_, rfl, rfl⟩
  · exact .inl rfl

theorem dims_of_traverse? {β γ : Type} {f : β → Option γ} {x : AnyTensor β} {y : AnyTensor γ}
    (h : x.traverse? f = some y) : y.dims = x.dims := by
  obtain ⟨value, _, rfl⟩ := Option.map_eq_some_iff.mp h
  rfl

theorem inRange?_cases (vocabulary : Nat) (tokens : AnyTensor Int) :
    (∃ e, inRange? vocabulary tokens = .error e ∧ IsTokenFault e) ∨
      ∃ rows, inRange? vocabulary tokens = .ok rows ∧ rows.dims = tokens.dims := by
  unfold inRange?
  split
  · next rows hrows => exact .inr ⟨rows, rfl, dims_of_traverse? hrows⟩
  · exact .inl ⟨_, rfl, .inr ⟨_, _, _, rfl⟩⟩

/-- An embedding takes every batch of tokens, and says of any other that they are none. -/
theorem forwardBatch_cases (l : Embedding α v d) (x : AnyTensor α) :
    (∃ e, l.forwardBatch x = .error e ∧ IsTokenFault e) ∨
      ∃ y t, l.forwardBatch x = .ok (y, t) ∧ y.dims = x.dims ++ [d] := by
  rcases tokens?_cases x with htokens | ⟨tokens, htokens, hdims⟩
  · exact .inl ⟨_, by rw [forwardBatch, htokens]; rfl, .inl rfl⟩
  · rcases inRange?_cases v tokens with ⟨e, he, hfault⟩ | ⟨rows, hrows, hdims'⟩
    · refine .inl ⟨e, ?_, hfault⟩
      rw [forwardBatch, htokens]
      simp [bind, Except.bind, he]
    · refine .inr ⟨(l.lookup rows).join, rows, ?_, by simp [lookup, hdims, hdims']⟩
      rw [forwardBatch, htokens]
      simp [bind, Except.bind, hrows, pure, Except.pure]

theorem dims_of_forwardBatch {t : AnyTensor (Fin v)} (h : l.forwardBatch x = .ok (y, t)) :
    x.dims = t.dims ∧ y.dims = t.dims ++ [d] := by
  simp only [forwardBatch, bind_eq_ok, pure_eq_ok] at h
  obtain ⟨tokens, htokens, rows, hrows, h⟩ := h
  obtain ⟨rfl, rfl⟩ := Prod.mk.inj h
  refine ⟨?_, rfl⟩
  rcases tokens?_cases x with hfault | ⟨tokens', htokens', hdims⟩
  · rw [htokens] at hfault
    contradiction
  · obtain rfl := Except.ok.inj (htokens.symm.trans htokens')
    rcases inRange?_cases v tokens with ⟨e, he, _⟩ | ⟨rows', hrows', hdims'⟩
    · rw [hrows] at he
      contradiction
    · obtain rfl := Except.ok.inj (hrows.symm.trans hrows')
      rw [hdims', hdims]

end Embedding

namespace PositionTable

variable [Add α] {n d : Nat} {l : PositionTable α n d} {x y : AnyTensor α} {lead : Dims} {length : Nat}

/-- Sequences of the width that a table fits, no longer than the table is, get its first rows. -/
theorem forwardBatch_of_blocks {greatest : Int} (hgreatest : l.greatest = .int greatest) (hfits : l.fits = .int d)
    (hlength : (length : Int) ≤ greatest) (hle : length ≤ n) (h : x.dims = lead ++ [length, d])
    {sequences : AnyTensor (Tensor α [length, d])} (hsequences : x.blocks? [length, d] = some sequences) :
    l.forwardBatch x = .ok ((sequences.map fun s => s.add (l.table.firstRows hle)).join, length) := by
  have hlast : x.lastAxis = d := by simp [lastAxis, h]
  have hcompare : Number.compare? (.int d) l.fits = some .eq := by simp [hfits, Number.compare?]
  have hreverse : x.dims.reverse = d :: length :: lead.reverse := by simp [h]
  have hlt : Number.lt l.greatest (.int length) = false := by
    simp [hgreatest, Number.lt, Number.compare?, Int.compare_eq_lt]
    omega
  rw [forwardBatch, hlast, if_pos hcompare, hreverse]
  simp only [encoding?, hlt, upTo?, dif_pos hle, fit_some hsequences]
  rfl

theorem forwardBatch_of_dims {greatest : Int} (hgreatest : l.greatest = .int greatest) (hn : n = greatest.toNat)
    (hfits : l.fits = .int d) (hlength : (length : Int) ≤ greatest) (h : x.dims = lead ++ [length, d]) :
    ∃ y t, l.forwardBatch x = .ok (y, t) ∧ y.dims = lead ++ [length, d] := by
  obtain ⟨sequences, hsequences, hdims⟩ := blocks?_of_dims h
  have hle : length ≤ n := by omega
  exact ⟨_, length, forwardBatch_of_blocks hgreatest hfits hlength hle h hsequences, by simp [hdims]⟩

theorem dims_of_forwardBatch (h : l.forwardBatch x = .ok (y, length)) :
    ∃ lead, x.dims = lead ++ [length, d] ∧ y.dims = lead ++ [length, d] := by
  unfold forwardBatch at h
  split at h
  · split at h
    · simp only [bind_eq_ok, pure_eq_ok, fit_eq_ok] at h
      obtain ⟨rows, _, sequences, hsequences, h⟩ := h
      obtain ⟨rfl, rfl⟩ := Prod.mk.inj h
      exact ⟨sequences.dims, dims_of_blocks? hsequences, rfl⟩
    · contradiction
  · contradiction

end PositionTable

/-! ## Images -/

namespace Conv2D

variable [Scalar α] {z : ConvSizes} {l : Conv2D α z} {x y : AnyTensor α} {b h w : Nat}

theorem forwardBatch_of_dims (l : Conv2D α z) (hdims : x.dims = b :: z.imageDims h w)
    (hfits : z.grid.fits h w = true) : ∃ y t, l.forwardBatch x = .ok (y, t) ∧ y.dims = b :: z.mapDims h w := by
  obtain ⟨images, himages, hlead⟩ := blocks?_of_dims (show x.dims = [b] ++ z.imageDims h w from hdims)
  have hlast : x.lastAxis = z.channels := by simp [lastAxis, hdims, ConvSizes.imageDims]
  refine ⟨((images.map fun image => l.trace image).map fun t => l.output t).join,
    ⟨h, w, images.map fun image => l.trace image⟩, ?_, by simp [hlead]⟩
  rw [ConvSizes.imageDims] at hdims
  unfold forwardBatch
  rw [if_pos hlast]
  simp only [hdims, fit_some himages, hfits, if_true]
  rfl

theorem dims_of_forwardBatch {t : BatchTrace α z} (h : l.forwardBatch x = .ok (y, t)) :
    x.dims = t.images.dims ++ z.imageDims t.height t.width ∧ y.dims = t.images.dims ++ z.mapDims t.height t.width := by
  unfold forwardBatch at h
  split at h
  · split at h
    · simp only [bind_eq_ok, fit_eq_ok] at h
      obtain ⟨images, himages, h⟩ := h
      split at h
      · obtain ⟨rfl, rfl⟩ := Prod.mk.inj (Except.ok.inj h)
        exact ⟨dims_of_blocks? himages, rfl⟩
      · contradiction
    · contradiction
  · contradiction

theorem fits_of_forwardBatch {t : BatchTrace α z} (h : l.forwardBatch x = .ok (y, t)) :
    z.grid.fits t.height t.width = true := by
  unfold forwardBatch at h
  split at h
  · split at h
    · simp only [bind_eq_ok, fit_eq_ok] at h
      obtain ⟨images, himages, h⟩ := h
      split at h
      · next hfits =>
          obtain ⟨rfl, rfl⟩ := Prod.mk.inj (Except.ok.inj h)
          exact hfits
      · contradiction
    · contradiction
  · contradiction

end Conv2D

namespace WindowGrid

variable [Scalar α] {g : WindowGrid} {x y : AnyTensor α} {b h w c : Nat}

theorem poolBatch_of_dims (hdims : x.dims = [b, h, w, c]) (hpads : g.padsWords x = false) (hfits : g.fits h w = true)
    (htaps : g.taps ≠ []) :
    ∃ y t, g.poolBatch x = .ok (y, t) ∧ y.dims = [b, g.outHeight h, g.outWidth w, c] := by
  obtain ⟨images, himages, hlead⟩ := blocks?_of_dims (show x.dims = [b] ++ [h, w, c] from hdims)
  refine ⟨((images.map fun image => g.taken Scalar.least? image).map pooled).join,
    ⟨h, w, c, (images.map fun image => g.taken Scalar.least? image).map tapsOf⟩, ?_, by simp [hlead]⟩
  unfold poolBatch
  simp only [hdims, fit_some himages, hpads]
  exact if_pos ⟨hfits, htaps⟩

theorem dims_of_poolBatch {t : PoolTrace g} (h : g.poolBatch x = .ok (y, t)) :
    x.dims = t.images.dims ++ [t.height, t.width, t.channels] ∧
      y.dims = t.images.dims ++ [g.outHeight t.height, g.outWidth t.width, t.channels] := by
  unfold poolBatch at h
  split at h
  · simp only [bind_eq_ok, fit_eq_ok] at h
    obtain ⟨images, himages, h⟩ := h
    split at h
    · contradiction
    · split at h
      · obtain ⟨rfl, rfl⟩ := Prod.mk.inj (Except.ok.inj h)
        exact ⟨dims_of_blocks? himages, rfl⟩
      · contradiction
  · contradiction

theorem fits_of_poolBatch {t : PoolTrace g} (h : g.poolBatch x = .ok (y, t)) : g.fits t.height t.width = true := by
  unfold poolBatch at h
  split at h
  · simp only [bind_eq_ok, fit_eq_ok] at h
    obtain ⟨images, himages, h⟩ := h
    split at h
    · contradiction
    · split at h
      · next hfits =>
          obtain ⟨rfl, rfl⟩ := Prod.mk.inj (Except.ok.inj h)
          exact hfits.1
      · contradiction
  · contradiction

/-- Windows that fit an image are some along either axis. -/
theorem out_pos_of_fits (hfits : g.fits h w = true) : 0 < g.outHeight h ∧ 0 < g.outWidth w := by
  simp only [fits, Bool.and_eq_true, decide_eq_true_eq] at hfits
  exact ⟨hfits.1.2, hfits.2⟩

/-- A kernel has a tap if it is at least one cell high and wide. -/
theorem taps_ne_nil (hheight : 1 ≤ g.rows.kernel) (hwidth : 1 ≤ g.columns.kernel) : g.taps ≠ [] := by
  have hmem : (0, 0) ∈ g.taps := by
    simp only [taps, List.mem_flatMap, List.mem_map, List.mem_range]
    exact ⟨0, by omega, 0, by omega, rfl⟩
  exact List.ne_nil_of_mem hmem

/-- Where no number is a word, none is padded. -/
theorem padsWords_eq_false (hwords : ∀ a : α, Scalar.isWord a = false) (x : AnyTensor α) : g.padsWords x = false := by
  have hnone : x.isWords = false :=
    Tensor.foldl_induction (P := fun found => found = false) (fun found a hfound => by simp [hfound, hwords]) x.value rfl
  simp [padsWords, hnone]

end WindowGrid

/-! ## Sequences -/

section Sequences

variable {x : AnyTensor α} {b s d : Nat}

theorem sequences?_of_dims (h : x.dims = [b, s, d]) :
    ∃ sequences : AnyTensor (Tensor α [s, d]), x.sequences? d = some ⟨s, sequences⟩ ∧ sequences.dims = [b] := by
  obtain ⟨sequences, hsequences, hdims⟩ := blocks?_of_dims (show x.dims = [b] ++ [s, d] from h)
  refine ⟨sequences, ?_, hdims⟩
  unfold sequences?
  simp only [h, hsequences]
  rfl

theorem dims_of_sequences? {sequences : AnyTensor (Tensor α [s, d])} (h : x.sequences? d = some ⟨s, sequences⟩) :
    x.dims = sequences.dims ++ [s, d] := by
  unfold sequences? at h
  split at h
  · obtain ⟨xs, hxs, h⟩ := Option.map_eq_some_iff.mp h
    obtain ⟨rfl, h⟩ := Sigma.mk.inj h
    obtain rfl := eq_of_heq h
    exact dims_of_blocks? hxs
  · contradiction

end Sequences

namespace MultiHeadAttention

variable [Scalar α] {d h k v b s : Nat} {l : MultiHeadAttention α d h k v} {training : Bool} {x y : AnyTensor α}
  {stream : Stream}

theorem forwardBatch_of_dims (l : MultiHeadAttention α d h k v) (hdims : x.dims = [b, s, d]) (training : Bool) (stream : Stream) :
    ∃ y t, (l.forwardBatch training x stream).1 = .ok (y, t) ∧ y.dims = [b, s, d] := by
  obtain ⟨sequences, hsequences, hlead⟩ := sequences?_of_dims hdims
  unfold forwardBatch
  simp only [hsequences]
  exact ⟨_, _, rfl, by simp [hlead]⟩

theorem dims_of_forwardBatch {t : BatchTrace α d h k v} (h : (l.forwardBatch training x stream).1 = .ok (y, t)) :
    x.dims = t.sequences.dims ++ [t.length, d] ∧ y.dims = t.sequences.dims ++ [t.length, d] := by
  cases hsequences : x.sequences? d with
  | none =>
      simp only [forwardBatch, hsequences] at h
      contradiction
  | some family =>
      obtain ⟨s, sequences⟩ := family
      simp only [forwardBatch, hsequences, run_bind] at h
      obtain ⟨rfl, rfl⟩ := Prod.mk.inj (Except.ok.inj h)
      exact ⟨dims_of_sequences? hsequences, rfl⟩

end MultiHeadAttention

namespace TransformerBlock

variable [Scalar α] {d h k f b s : Nat} {l : TransformerBlock α d h k f} {training : Bool} {x y : AnyTensor α}
  {stream : Stream}

theorem forwardBatch_of_dims (l : TransformerBlock α d h k f) (hdims : x.dims = [b, s, d]) (training : Bool)
    (stream : Stream) : ∃ y t, (l.forwardBatch training x stream).1 = .ok (y, t) ∧ y.dims = [b, s, d] := by
  obtain ⟨sequences, hsequences, hlead⟩ := sequences?_of_dims hdims
  unfold forwardBatch
  simp only [hsequences]
  exact ⟨_, _, rfl, by simp [hlead]⟩

theorem dims_of_forwardBatch {t : BatchTrace α d h k f} (h : (l.forwardBatch training x stream).1 = .ok (y, t)) :
    x.dims = t.sequences.dims ++ [t.length, d] ∧ y.dims = t.sequences.dims ++ [t.length, d] := by
  cases hsequences : x.sequences? d with
  | none =>
      simp only [forwardBatch, hsequences] at h
      contradiction
  | some family =>
      obtain ⟨s, sequences⟩ := family
      simp only [forwardBatch, hsequences, run_bind] at h
      obtain ⟨rfl, rfl⟩ := Prod.mk.inj (Except.ok.inj h)
      exact ⟨dims_of_sequences? hsequences, rfl⟩

end TransformerBlock

/-! ## Axes taken away -/

namespace Flatten

variable [Zero α] {x y : AnyTensor α} {b : Nat} {s : Dims}

theorem forwardBatch_of_dims (h : x.dims = b :: s) : ∃ y, forwardBatch x = .ok y ∧ y.dims = [b, Dims.volume s] := by
  unfold forwardBatch
  simp only [h]
  exact ⟨_, rfl, by simp [split, h]⟩

theorem dims_of_forwardBatch (h : forwardBatch x = .ok y) : ∃ b s, x.dims = b :: s ∧ y.dims = [b, Dims.volume s] := by
  unfold forwardBatch at h
  split at h
  · contradiction
  · next b s hdims =>
      obtain rfl := Except.ok.inj h
      exact ⟨b, s, hdims, by simp [split, hdims]⟩

end Flatten

namespace Average

variable [Zero α] [Add α] [Div α] [NatCast α] {x y : AnyTensor α} {b n : Nat} {s : Dims}

theorem forwardBatch_of_dims (h : x.dims = b :: n :: s) : ∃ y, forwardBatch x = .ok y ∧ y.dims = b :: s := by
  obtain ⟨dims, value⟩ := x
  obtain rfl : dims = b :: n :: s := h
  exact ⟨_, rfl, rfl⟩

theorem dims_of_forwardBatch (h : forwardBatch x = .ok y) : ∃ b n s, x.dims = b :: n :: s ∧ y.dims = b :: s := by
  obtain ⟨dims, value⟩ := x
  match dims, value, h with
  | [], _, h | [_], _, h => contradiction
  | b :: n :: s, _, h =>
      obtain rfl := Except.ok.inj h
      exact ⟨b, n, s, rfl, rfl⟩

end Average
end LayerStack
