import LayerStack.Proofs.Tensor.Entry
import LayerStack.Proofs.Tensor.Sample

/-!
# LayerStack.Proofs.Tensor.Batch

Batches as the families of their samples, sample by sample.

A batch is a family along one axis.  Each operation on such families has a lemma that says what the result is for the
sample at every place, so that what is said of a pass of a batch is said of its samples.
-/

namespace LayerStack.AnyTensor

variable {α β γ T U : Type} {n : Nat} {s : Dims}

theorem zipWith?_one (f : T → U → γ) (x : Tensor T [n]) (y : Tensor U [n]) :
    zipWith? f ⟨[n], x⟩ ⟨[n], y⟩ = some ⟨[n], Tensor.ofEntries fun i => f (x.entry i) (y.entry i)⟩ :=
  (zipWith?_mk f x y).trans (congrArg (fun z => some (AnyTensor.mk [n] z)) (Tensor.zipWith_eq_ofEntries f x y))

theorem map_ofEntries (f : T → β) (e : Fin n → T) :
    AnyTensor.map f ⟨[n], Tensor.ofEntries e⟩ = ⟨[n], Tensor.ofEntries fun i => f (e i)⟩ :=
  congrArg (AnyTensor.mk [n]) (Tensor.map_ofEntries f e)

/-- What a function makes of every sample of a batch. -/
theorem map_one (f : Tensor α s → β) (x : Tensor α (n :: s)) :
    AnyTensor.map f ⟨[n], x⟩ = ⟨[n], Tensor.ofEntries fun i => f (x.row i)⟩ := by
  refine congrArg (AnyTensor.mk [n]) (Tensor.ext_entry fun i => ?_)
  rw [Tensor.entry_ofEntries]
  exact Tensor.entry_map f x i

theorem join_ofEntries (e : Fin n → Tensor α s) : join ⟨[n], Tensor.ofEntries e⟩ = ⟨n :: s, Tensor.ofFn e⟩ :=
  join_one (Tensor.ofFn e)

/-- A batch of sequences is the family of them. -/
theorem sequences?_one {m d : Nat} (x : Tensor α [n, m, d]) : sequences? ⟨[n, m, d], x⟩ d = some ⟨m, [n], x⟩ :=
  congrArg (Option.map _) (blocks?_one x)

/-- A batch already is a family along its first axis. -/
theorem spreadFamily?_one (x : Tensor α (n :: s)) : spreadFamily? ⟨n :: s, x⟩ [n] s = some ⟨[n], x⟩ := by
  have hblocks : Tensor.blocks [n] (s := s) x = x := Vector.map_id x
  exact (congrArg (Option.map _) (Tensor.stretch?_self x)).trans
    (congrArg (fun y => some (AnyTensor.mk [n] y)) hblocks)

theorem spreadBlocks?_one (x : Tensor α (n :: s)) : spreadBlocks? ⟨n :: s, x⟩ s = some ⟨[n], x⟩ := by
  have hrank : rank ⟨n :: s, x⟩ - s.length = 1 := by simp [rank]
  have hsamples : Vector.mapM (fun r : Tensor α s => r.stretch? s) x = some x := by
    have hkept : (fun r : Tensor α s => r.stretch? s) = some := funext Tensor.stretch?_self
    rw [hkept]
    exact (Vector.mapM_pure (m := Option) fun r => r).trans (congrArg some (Vector.map_id' x))
  rw [spreadBlocks?, hrank, split_one]
  exact congrArg (Option.map fun y => AnyTensor.mk [n] y) hsamples

end LayerStack.AnyTensor
