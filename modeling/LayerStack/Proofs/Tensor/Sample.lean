import LayerStack.Proofs.Tensor.Traverse

/-!
# LayerStack.Proofs.Tensor.Sample

Functions of a batch that treat every sample by itself.

A batch has its samples along its first axis.  `SampleWise` says of a function of batches that it is one function of a
sample, run over all of them.  Such functions follow one another (`SampleWise.bind`), whatever works on families of the
last axes of samples is one of them (`sampleWise_blocks`), and what they make of two batches one after the other is what
they make of the first, and then of the second (`SampleWise.append`).
-/

namespace LayerStack

namespace Tensor

variable {α β γ : Type}

theorem map_map (f : α → β) (g : β → γ) : (s : Dims) → (x : Tensor α s) → (x.map f).map g = x.map fun a => g (f a)
  | [], _ => rfl
  | _ :: s, _ => Vector.map_map.trans (Vector.map_congr_left fun r _ => map_map f g s r)

theorem map_fill (f : α → β) (a : α) : (s : Dims) → (fill a s).map f = fill (f a) s
  | [] => rfl
  | n :: s => Vector.map_replicate.trans (congrArg (Vector.replicate n) (map_fill f a s))

/-- Entries combined with the same entry everywhere. -/
theorem zipWith_fill (f : α → β → γ) (a : α) : (s : Dims) → (x : Tensor β s) → zipWith f (fill a s) x = x.map (f a)
  | [], _ => rfl
  | n :: s, x => by
      refine Vector.ext fun i hi => ?_
      have hrow : (Vector.replicate n (fill a s))[i] = fill a s := Vector.getElem_replicate hi
      have hleft : (zipWith f (fill a (n :: s)) x)[i] = zipWith f (Vector.replicate n (fill a s))[i] x[i] :=
        Vector.getElem_zipWith hi
      rw [hleft, hrow, zipWith_fill f a s]
      exact (Vector.getElem_map (map (f a)) hi).symm

/-- The samples of two batches, one after the other. -/
def append {m n : Nat} {s : Dims} (x : Tensor α (m :: s)) (y : Tensor α (n :: s)) : Tensor α ((m + n) :: s) :=
  Vector.append x y

/-- Some entry passes a test unless all pass the contrary one. -/
theorem foldl_or (p : α → Bool) : (s : Dims) → (x : Tensor α s) → (b : Bool) →
    x.foldl (fun found a => found || p a) b = !x.foldl (fun ok a => ok && !p a) (!b)
  | [], a, b => by cases b <;> cases hp : p a <;> simp [foldl, hp]
  | _ :: s, x, b => by
      have hrows (ok : Bool) (r : Tensor α s) :
          r.foldl (fun found a => found || p a) (!ok) = !r.foldl (fun ok a => ok && !p a) ok := by
        rw [foldl_or p s r, Bool.not_not]
      have hfold : Vector.foldl (fun acc r => foldl (fun found a => found || p a) acc r) (!!b) x =
          !Vector.foldl (fun acc r => foldl (fun ok a => ok && !p a) acc r) (!b) x := Vector.foldl_hom not hrows
      rw [Bool.not_not] at hfold
      exact hfold

end Tensor

namespace AnyTensor

variable {α β γ : Type} {s t u v lead : Dims} {n : Nat}

/-! ## Families of samples -/

theorem map_map (f : α → β) (g : β → γ) (x : AnyTensor α) : (x.map f).map g = x.map fun a => g (f a) :=
  congrArg (AnyTensor.mk x.dims) (Tensor.map_map f g x.dims x.value)

theorem join_map_map (f : α → β) (g : β → Tensor γ s) (x : AnyTensor α) :
    ((x.map f).map g).join = (x.map fun a => g (f a)).join := congrArg join (map_map f g x)

theorem blocks_cast {lead' s' : Dims} (hs : s' = s) (hlead : lead' = lead) (h : lead ++ s = lead' ++ s')
    (x : Tensor α (lead ++ s)) :
    (hs ▸ (⟨lead', Tensor.blocks lead' (h ▸ x)⟩ : AnyTensor (Tensor α s')) : AnyTensor (Tensor α s)) =
      ⟨lead, Tensor.blocks lead x⟩ := by
  subst hs hlead
  rfl

/-- A tensor is the family of those of its last axes. -/
theorem blocks?_mk (lead s : Dims) (x : Tensor α (lead ++ s)) :
    blocks? ⟨lead ++ s, x⟩ s = some ⟨lead, Tensor.blocks lead x⟩ := by
  have hdrop : (lead ++ s).drop ((lead ++ s).length - s.length) = s := by simp
  have htake : (lead ++ s).take ((lead ++ s).length - s.length) = lead := by simp
  exact (dif_pos hdrop).trans (congrArg some (blocks_cast hdrop htake _ x))

/-- A batch is the family of its samples. -/
theorem split_one (x : Tensor α (n :: s)) : split ⟨n :: s, x⟩ 1 = ⟨[n], x⟩ := by
  have hblocks : Tensor.blocks [n] (s := s) x = x := Vector.map_id x
  exact congrArg (AnyTensor.mk [n]) hblocks

theorem blocks?_one (x : Tensor α (n :: s)) : blocks? ⟨n :: s, x⟩ s = some ⟨[n], x⟩ := by
  have hblocks : Tensor.blocks [n] (s := s) x = x := Vector.map_id x
  exact (blocks?_mk [n] s x).trans (congrArg (fun y => some (AnyTensor.mk [n] y)) hblocks)

/-- Samples along one axis make a batch. -/
theorem join_one (x : Tensor α (n :: s)) : join ⟨[n], x⟩ = ⟨n :: s, x⟩ := by
  have hjoin : Tensor.join [n] (s := s) x = x := Vector.map_id x
  exact congrArg (AnyTensor.mk (n :: s)) hjoin

theorem join_map_one {T : Type} (f : T → Tensor β t) (x : Tensor T [n]) :
    (AnyTensor.map f ⟨[n], x⟩).join = ⟨n :: t, Vector.map f x⟩ :=
  join_one (Vector.map f x)

/-- What a function makes of every sample of a batch, as a batch. -/
theorem join_map_split (f : Tensor α s → Tensor β t) (x : Tensor α (n :: s)) :
    (AnyTensor.map f (split ⟨n :: s, x⟩ 1)).join = ⟨n :: t, Vector.map f x⟩ := by
  have hjoin : Tensor.join [n] (s := t) (Vector.map f x) = Vector.map f x := Vector.map_id _
  exact (congrArg (fun y => (AnyTensor.map f y).join) (split_one x)).trans (congrArg (AnyTensor.mk (n :: t)) hjoin)

/-! ## One function of a sample -/

/-- A function of batches of samples of given axes is one function of a sample, run over all of them, and its results
have some number of axes.  A batch has at least one sample. -/
def SampleWise (s : Dims) (rank : Nat) (run : AnyTensor α → Option (AnyTensor β)) : Prop :=
  ∃ t : Dims, t.length = rank ∧ ∃ f : Tensor α s → Option (Tensor β t), ∀ {n : Nat}, 0 < n → ∀ x : Tensor α (n :: s),
    run ⟨n :: s, x⟩ = (Vector.mapM f x).map fun y => ⟨n :: t, y⟩

variable {rank : Nat} {run : AnyTensor α → Option (AnyTensor β)}

/-- Only the batches of samples of those axes count. -/
theorem SampleWise.congr {run' : AnyTensor α → Option (AnyTensor β)} (h : SampleWise s rank run)
    (hrun : ∀ {n : Nat} (x : Tensor α (n :: s)), run' ⟨n :: s, x⟩ = run ⟨n :: s, x⟩) : SampleWise s rank run' := by
  obtain ⟨t, ht, f, hf⟩ := h
  exact ⟨t, ht, f, fun hn x => (hrun x).trans (hf hn x)⟩

/-- What always fails treats every sample alike. -/
theorem sampleWise_none (rank : Nat) (h : ∀ {n : Nat} (x : Tensor α (n :: s)), run ⟨n :: s, x⟩ = none) :
    SampleWise s rank run := by
  refine ⟨List.replicate rank 0, List.length_replicate, fun _ => none, fun hn x => ?_⟩
  rw [h, Tensor.mapM_none hn]
  rfl

/-- What makes something of every sample. -/
theorem sampleWise_map (f : Tensor α s → Tensor β t) (ht : t.length = rank)
    (h : ∀ {n : Nat} (x : Tensor α (n :: s)), run ⟨n :: s, x⟩ = some ⟨n :: t, Vector.map f x⟩) :
    SampleWise s rank run := by
  refine ⟨t, ht, fun a => some (f a), fun hn x => ?_⟩
  have hpure : Vector.mapM (fun a => some (f a)) x = some (Vector.map f x) := Vector.mapM_pure (m := Option) f
  rw [h, hpure]
  rfl

/-- What works on the families of the last axes. -/
theorem sampleWise_blocks (g : Tensor α u → Tensor β v) (hle : u.length ≤ s.length)
    (hrank : s.length - u.length + v.length = rank)
    (h : ∀ {n : Nat} (x : Tensor α (n :: s)), run ⟨n :: s, x⟩ =
      (blocks? ⟨n :: s, x⟩ u).map fun blocks => (blocks.map g).join) : SampleWise s rank run := by
  by_cases hs : s.drop (s.length - u.length) = u
  · obtain ⟨lead, rfl⟩ : ∃ lead, s = lead ++ u := ⟨_, (hs ▸ List.take_append_drop (s.length - u.length) s).symm⟩
    have ht : (lead ++ v).length = rank := by simpa using hrank
    refine sampleWise_map (fun a => Tensor.join lead (Tensor.map g (Tensor.blocks lead a))) ht fun {n} x => ?_
    have hblocks : blocks? ⟨n :: (lead ++ u), x⟩ u = some ⟨n :: lead, Tensor.blocks (n :: lead) x⟩ :=
      blocks?_mk (n :: lead) u x
    have hjoin : Tensor.join (n :: lead) (Tensor.map g (Tensor.blocks (n :: lead) x)) =
        Vector.map (fun a => Tensor.join lead (Tensor.map g (Tensor.blocks lead a))) x := by
      show Vector.map _ (Vector.map _ (Vector.map _ x)) = _
      rw [Vector.map_map, Vector.map_map]
      rfl
    rw [h, hblocks, ← hjoin]
    rfl
  · refine sampleWise_none _ fun {n} x => ?_
    have hdrop : (n :: s).drop ((n :: s).length - u.length) ≠ u := by
      have hlength : (n :: s).length - u.length = s.length - u.length + 1 := by
        rw [List.length_cons]
        omega
      rwa [hlength, List.drop_succ_cons]
    have hblocks : blocks? ⟨n :: s, x⟩ u = none := dif_neg hdrop
    rw [h, hblocks]
    rfl

/-- What leaves a batch as it is. -/
theorem sampleWise_id (s : Dims) : SampleWise s s.length (some : AnyTensor α → _) :=
  sampleWise_map (fun a => a) rfl fun x => congrArg (fun y => some (AnyTensor.mk _ y)) (Vector.map_id x).symm

/-- What changes every entry. -/
theorem sampleWise_entries (f : α → β) (s : Dims) : SampleWise s s.length fun x => some (x.map f) :=
  sampleWise_map (Tensor.map f) rfl fun _ => rfl

/-- What makes a tensor of every entry. -/
theorem sampleWise_join (f : α → Tensor β u) (s : Dims) :
    SampleWise s (s.length + u.length) fun x => some (x.map f).join := by
  refine sampleWise_map (fun a => Tensor.join s (Tensor.map f a)) (by simp) fun x => ?_
  exact congrArg (fun y => some (AnyTensor.mk _ y)) Vector.map_map

/-- What makes something of every entry, if it can. -/
theorem sampleWise_traverse (f : α → Option β) (s : Dims) : SampleWise s s.length fun x => x.traverse? f :=
  ⟨s, rfl, Tensor.traverse? f, fun _ _ => rfl⟩

/-- What lets a batch through whose entries pass a test. -/
theorem sampleWise_test (p : α → Bool) (s : Dims) :
    SampleWise s s.length fun x => if x.foldl (fun ok a => ok && p a) true then some x else none := by
  refine (sampleWise_traverse (Option.guard p) s).congr fun x => ?_
  rw [traverse?, Tensor.traverse?_guard, foldl]
  split <;> rfl

/-- Functions that treat every sample by itself, one after the other. -/
theorem SampleWise.bind {rank' : Nat} {next : AnyTensor β → Option (AnyTensor γ)} (h : SampleWise s rank run)
    (hnext : ∀ t : Dims, t.length = rank → SampleWise t rank' next) :
    SampleWise s rank' fun x => (run x).bind next := by
  obtain ⟨t, ht, f, hf⟩ := h
  obtain ⟨t', ht', g, hg⟩ := hnext t ht
  refine ⟨t', ht', fun a => (f a).bind g, fun hn x => ?_⟩
  show (run ⟨_, x⟩).bind next = _
  rw [hf hn, ← Tensor.mapM_bind]
  cases Vector.mapM f x with
  | none => rfl
  | some y => exact hg hn y

/-! ## Two batches -/

/-- Two batches of samples of the same axes, one after the other. -/
def append? : AnyTensor α → AnyTensor α → Option (AnyTensor α)
  | ⟨_ :: s, x⟩, ⟨_ :: t, y⟩ => if h : t = s then some ⟨_, x.append (h ▸ y : Tensor α (_ :: s))⟩ else none
  | _, _ => none

theorem append?_mk {m : Nat} (x : Tensor α (m :: s)) (y : Tensor α (n :: s)) :
    append? ⟨m :: s, x⟩ ⟨n :: s, y⟩ = some ⟨(m + n) :: s, x.append y⟩ := dif_pos rfl

/-- What comes of two batches and of both, one after the other: either something comes of each, and then of both what
comes of the first and then of the second, or nothing comes of one of them, and then nothing of both. -/
inductive Appended : Option (AnyTensor α) → Option (AnyTensor α) → Option (AnyTensor α) → Prop
  | both {u v w : AnyTensor α} (h : u.append? v = some w) : Appended (some u) (some v) (some w)
  | first (v : Option (AnyTensor α)) : Appended none v none
  | second (u : Option (AnyTensor α)) : Appended u none none

/-- What treats every sample by itself makes of two batches what it makes of the first, and then of the second. -/
theorem SampleWise.appended {m : Nat} (h : SampleWise s rank run) (hm : 0 < m) (hn : 0 < n) (x : Tensor α (m :: s))
    (y : Tensor α (n :: s)) : Appended (run ⟨m :: s, x⟩) (run ⟨n :: s, y⟩) (run ⟨(m + n) :: s, x.append y⟩) := by
  obtain ⟨t, _, f, hf⟩ := h
  have hboth : Vector.mapM f (x.append y) = (Vector.mapM f x).bind fun u => (Vector.mapM f y).bind fun v =>
      some (Tensor.append u v) := Vector.mapM_append (m := Option)
  rw [hf hm, hf hn, hf (by omega), hboth]
  cases Vector.mapM f x with
  | none => exact .first _
  | some u =>
      cases Vector.mapM f y with
      | none => exact .second _
      | some v => exact .both (append?_mk u v)

end AnyTensor

end LayerStack
