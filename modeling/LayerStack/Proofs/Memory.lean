import LayerStack.Memory
import Mathlib.Algebra.GroupWithZero.Nat
import Mathlib.Data.List.Basic

/-!
# LayerStack.Proofs.Memory

What a tracker holds after its owners were tracked, forgotten and collected.

Collecting an owner runs its finalizers, so it forgets what the owner holds only if the owner has one.  Every owner that
holds something has one as long as nothing but tracking adds to what is held (`Watched`); then a collection holds what
it held of all other owners (`held_collectAll`).
-/

namespace LayerStack.MemoryTracker

variable {t : MemoryTracker} {owner : Identity}

/-- Every owner that holds something has a finalizer. -/
def Watched (t : MemoryTracker) : Prop := ∀ p ∈ t.held, p.1 ∈ t.finalizers

theorem watched_new : Watched {} := by
  simp [Watched]

theorem Watched.forget (h : t.Watched) (owner : Identity) : (t.forget owner).Watched :=
  fun p hp => h p (List.mem_of_mem_filter hp)

theorem Watched.track (h : t.Watched) (owner : Identity) (tensors : List (Option Dims)) :
    (t.track owner tensors).Watched := by
  intro p hp
  rcases List.mem_append.mp hp with hp | hp
  · exact List.mem_cons_of_mem _ (h.forget owner p hp)
  · rw [List.mem_singleton.mp hp]
    exact List.mem_cons_self

/-- A new owner's tensors come after those there are. -/
theorem held_track_of_new (h : ∀ p ∈ t.held, p.1 ≠ owner) (tensors : List Dims) :
    (t.track owner (tensors.map some)).held = t.held ++ [(owner, tensors)] := by
  have hothers : t.held.filter (·.1 != owner) = t.held :=
    List.filter_eq_self.mpr fun p hp => bne_iff_ne.mpr (h p hp)
  have htensors : (tensors.map some).filterMap id = tensors := by
    rw [List.filterMap_map, Function.id_comp, List.filterMap_some]
  show t.held.filter (·.1 != owner) ++ [(owner, (tensors.map some).filterMap id)] = _
  rw [hothers, htensors]

/-- An owner is tracked just if it has an entry. -/
theorem isTracked_eq_isSome (t : MemoryTracker) (owner : Identity) :
    t.isTracked owner = (t.held.lookup owner).isSome := by
  rw [Bool.eq_iff_iff, isTracked, List.any_eq_true, List.lookup_isSome_iff]
  simp only [beq_iff_eq, @eq_comm _ owner]

/-! ## Collections -/

theorem forget_forget (t : MemoryTracker) (owner : Identity) : (t.forget owner).forget owner = t.forget owner := by
  simp [forget]

/-- Of all finalizers only those of the owner do something, and one of them is enough. -/
theorem foldl_finalizers (ids : List Identity) (t : MemoryTracker) (owner : Identity) :
    ids.foldl (fun m id => if id = owner then m.forget id else m) t = if owner ∈ ids then t.forget owner else t := by
  induction ids generalizing t with
  | nil => rfl
  | cons id ids ih =>
      rw [List.foldl_cons, ih]
      by_cases hid : id = owner
      · have hmem : owner ∈ id :: ids := hid ▸ List.mem_cons_self
        rw [if_pos hid, if_pos hmem, hid, forget_forget, ite_self]
      · have hmem : owner ∈ id :: ids ↔ owner ∈ ids := by simp [Ne.symm hid]
        rw [if_neg hid]
        simp only [hmem]

theorem held_collect (h : t.Watched) (owner : Identity) : (t.collect owner).held = t.held.filter (·.1 != owner) := by
  rw [collect, foldl_finalizers]
  by_cases howner : owner ∈ t.finalizers
  · simp only [if_pos howner]
    rfl
  · have hothers : ∀ p ∈ t.held, (p.1 != owner) = true := fun p hp =>
      bne_iff_ne.mpr fun heq => howner (heq ▸ h p hp)
    simp only [if_neg howner]
    exact (List.filter_eq_self.mpr hothers).symm

theorem Watched.collect (h : t.Watched) (owner : Identity) : (t.collect owner).Watched := by
  intro p hp
  rw [held_collect h] at hp
  obtain ⟨hheld, hother⟩ := List.mem_filter.mp hp
  exact List.mem_filter.mpr ⟨h p hheld, hother⟩

/-- After some owners were collected, the others hold what they held. -/
theorem held_collectAll {β : Type} (h : t.Watched) (gone : List (Identity × β)) :
    (gone.foldl (fun memory (id, _) => memory.collect id) t).Watched ∧
      (gone.foldl (fun memory (id, _) => memory.collect id) t).held =
        t.held.filter fun p => !(gone.map (·.1)).contains p.1 := by
  induction gone generalizing t with
  | nil =>
      refine ⟨h, ?_⟩
      simp
  | cons q gone ih =>
      obtain ⟨hwatched, hheld⟩ := ih (h.collect q.1)
      refine ⟨hwatched, ?_⟩
      rw [List.foldl_cons, hheld, held_collect h, List.filter_filter]
      refine List.filter_congr fun p _ => ?_
      rw [List.map_cons, List.contains_cons, Bool.not_or, Bool.and_comm]
      rfl

/-! ## Counts -/

theorem info_eq (t : MemoryTracker) : t.info = ⟨(t.held.map fun p => p.2.length).sum,
    8 * (t.held.map fun p => (p.2.map Dims.volume).sum).sum⟩ := by
  have hbytes (tensors : List Dims) :
      tensors.foldr (fun dims bytes => MemoryInfo.entryBytes * Dims.volume dims + bytes) 0 =
        8 * (tensors.map Dims.volume).sum := by
    induction tensors with
    | nil => rfl
    | cons dims tensors ih =>
        rw [List.foldr_cons, ih, List.map_cons, List.sum_cons, Nat.mul_add]
        rfl
  rw [info, hbytes, tensors, List.length_flatMap, List.map_flatMap, List.flatMap_def, List.sum_flatten, List.map_map]
  rfl

end LayerStack.MemoryTracker
