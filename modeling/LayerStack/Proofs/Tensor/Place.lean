import LayerStack.Proofs.Tensor.Batch
import LayerStack.Proofs.Tensor.Family
import LayerStack.Proofs.Tensor.Traverse

/-!
# LayerStack.Proofs.Tensor.Place

Tensors along any leading axes, place by place.

A place along some axes is one index for each of them (`Place`).  A tensor has an entry at every place (`pick`), and one
with more axes behind those has a tensor of the axes behind (`member`).  What works on families does so at every place by
itself: each operation has a lemma that says what the result is there.  A function that may fail has results where it has
one at every place (`traverse?_eq_some`).  A sum along leading axes is a sum over their places
(`foldl_eq_sum_pick`, `inner_eq_sum_member`).
-/

namespace LayerStack

/-- The places along some axes: an index for each. -/
@[reducible] def Place : Dims → Type
  | [] => Unit
  | n :: s => Fin n × Place s

instance Place.fintype : (s : Dims) → Fintype (Place s)
  | [] => inferInstanceAs (Fintype Unit)
  | n :: s =>
    have := Place.fintype s
    inferInstanceAs (Fintype (Fin n × Place s))

namespace Place

variable {M : Type} [AddCommMonoid M] {n : Nat} {s : Dims}

theorem sum_nil (f : Place [] → M) : ∑ p, f p = f () := by
  have hunit : ∑ p : Unit, f p = f () := Fintype.sum_unique f
  exact hunit

theorem sum_cons (f : Place (n :: s) → M) : ∑ p, f p = ∑ i : Fin n, ∑ p : Place s, f (i, p) := by
  have hpairs : ∑ p : Fin n × Place s, f p = ∑ i : Fin n, ∑ p : Place s, f (i, p) := Fintype.sum_prod_type f
  exact hpairs

end Place

namespace Tensor

variable {α β γ : Type} {n : Nat} {s t lead : Dims}

/-! ## Entries -/

/-- The entry at a place. -/
def pick : {s : Dims} → Tensor α s → Place s → α
  | [], a, _ => a
  | _ :: _, x, p => pick (row x p.1) p.2

/-- The tensor with given entries. -/
def ofPlaces : {s : Dims} → (Place s → α) → Tensor α s
  | [], f => f ()
  | _ :: _, f => ofFn fun i => ofPlaces fun p => f (i, p)

@[simp] theorem pick_ofPlaces : {s : Dims} → (f : Place s → α) → (p : Place s) → (ofPlaces f).pick p = f p
  | [], _, _ => rfl
  | _ :: _, f, p => by rw [pick, ofPlaces, row_ofFn, pick_ofPlaces]

/-- Where every place has an entry to choose, a tensor has them all. -/
theorem exists_pick {P : Place s → α → Prop} (h : ∀ p, ∃ a, P p a) : ∃ x : Tensor α s, ∀ p, P p (x.pick p) := by
  choose f hf using h
  exact ⟨ofPlaces f, fun p => by rw [pick_ofPlaces]; exact hf p⟩

/-- Tensors with the same entries are the same. -/
theorem ext_pick : {s : Dims} → {x y : Tensor α s} → (∀ p, x.pick p = y.pick p) → x = y
  | [], _, _, h => h ()
  | _ :: _, _, _, h => ext_row fun i => ext_pick fun p => h (i, p)

@[simp] theorem pick_map (f : α → β) : {s : Dims} → (x : Tensor α s) → (p : Place s) → (x.map f).pick p = f (x.pick p)
  | [], _, _ => rfl
  | _ :: _, x, p => by rw [pick, row_map, pick_map f, pick]

@[simp] theorem pick_zipWith (f : α → β → γ) : {s : Dims} → (x : Tensor α s) → (y : Tensor β s) → (p : Place s) →
    (zipWith f x y).pick p = f (x.pick p) (y.pick p)
  | [], _, _, _ => rfl
  | _ :: _, x, y, p => by rw [pick, row_zipWith, pick_zipWith f, pick, pick]

@[simp] theorem pick_fill (a : α) : {s : Dims} → (p : Place s) → (fill a s).pick p = a
  | [], _ => rfl
  | _ :: _, p => by rw [pick, row_fill, pick_fill a]

/-- What a fold makes of all entries is a sum over their places, if every step adds its own part to it. -/
theorem foldl_eq_sum_pick {M : Type} [AddCommMonoid M] (φ : β → M) (ψ : α → M) {f : β → α → β}
    (hstep : ∀ b a, φ (f b a) = φ b + ψ a) : {s : Dims} → (x : Tensor α s) → (b : β) →
    φ (x.foldl f b) = φ b + ∑ p, ψ (x.pick p)
  | [], x, b => by
      rw [Place.sum_nil]
      exact hstep b x
  | n :: s, x, b => by
      have hrows := foldl_eq_sum_of_step (fun _ => True) φ (fun r : Tensor α s => ∑ p, ψ (pick r p))
        (f := fun b r => foldl f b r) (fun b r _ => ⟨trivial, foldl_eq_sum_pick φ ψ hstep r b⟩) (n := n) x (b := b) trivial
      rw [Place.sum_cons]
      exact hrows.2

/-- A sum of rows of numbers, place by place. -/
theorem entry_foldl_add [AddCommMonoid α] (x : Tensor (Tensor α [n]) s) (i : Fin n) :
    (x.foldl add (zeros [n])).entry i = ∑ p, (x.pick p).entry i := by
  rw [foldl_eq_sum_pick (entry · i) (entry · i) (fun _ _ => entry_add _ _ i), entry_zeros, zero_add]

/-! ## Functions that may fail -/

/-- A function has results for all entries where it has one at every place. -/
theorem traverse?_eq_some {f : α → Option β} : {s : Dims} → {x : Tensor α s} → {y : Tensor β s} →
    (x.traverse? f = some y ↔ ∀ p, f (x.pick p) = some (y.pick p))
  | [], _, _ => ⟨fun h _ => h, fun h => h ()⟩
  | n :: s, x, y => by
      have hrows : x.traverse? f = some y ↔ ∀ i : Fin n, traverse? f (row x i) = some (row y i) := mapM_eq_some
      rw [hrows]
      constructor
      · rintro h ⟨i, p⟩
        exact traverse?_eq_some.mp (h i) p
      · exact fun h i => traverse?_eq_some.mpr fun p => h (i, p)

/-- A test of all entries is passed where every entry passes it. -/
theorem foldl_and_eq_true {f : α → Bool} {x : Tensor α s} :
    x.foldl (fun ok a => ok && f a) true = true ↔ ∀ p, f (x.pick p) = true := by
  have hguard := traverse?_guard f s x
  have hall : x.traverse? (Option.guard f) = some x ↔ ∀ p, f (x.pick p) = true := by
    rw [traverse?_eq_some]
    simp [Option.guard]
  rw [← hall, hguard]
  cases x.foldl (fun ok a => ok && f a) true <;> simp

/-! ## Members -/

/-- The tensor at a place along the leading axes. -/
def member (x : Tensor α (lead ++ s)) (p : Place lead) : Tensor α s := (blocks lead x).pick p

@[simp] theorem member_join (x : Tensor (Tensor α s) lead) (p : Place lead) : (join lead x).member p = x.pick p := by
  rw [member, blocks_join]

theorem member_cons (x : Tensor α (n :: lead ++ s)) (p : Place (n :: lead)) :
    x.member p = (row (s := lead ++ s) x p.1).member p.2 := by
  have hrow : row (blocks (n :: lead) (s := s) x) p.1 = blocks lead (row x p.1) :=
    Vector.getElem_map (blocks lead) p.1.isLt
  rw [member, pick, hrow, member]

/-- Tensors with the same members are the same. -/
theorem ext_member : {lead : Dims} → {x y : Tensor α (lead ++ s)} → (∀ place, x.member place = y.member place) → x = y
  | [], _, _, h => h ()
  | _ :: lead, x, y, h => by
      refine ext_row (s := lead ++ s) fun i => ext_member fun place => ?_
      have hplace := h (i, place)
      rwa [member_cons, member_cons] at hplace

@[simp] theorem member_map (f : α → β) : {lead : Dims} → (x : Tensor α (lead ++ s)) → (p : Place lead) →
    member (x.map f) p = (x.member p).map f
  | [], _, _ => rfl
  | _ :: lead, x, p => by
      have hrow := row_map f (s := lead ++ s) x p.1
      exact (member_cons _ p).trans (by rw [hrow, member_map f, ← member_cons])

@[simp] theorem member_zipWith (f : α → β → γ) : {lead : Dims} → (x : Tensor α (lead ++ s)) → (y : Tensor β (lead ++ s)) →
    (p : Place lead) → member (zipWith f x y) p = zipWith f (x.member p) (y.member p)
  | [], _, _, _ => rfl
  | _ :: lead, x, y, p => by
      have hrow := row_zipWith f (s := lead ++ s) x y p.1
      exact (member_cons _ p).trans (by rw [hrow, member_zipWith f, ← member_cons, ← member_cons])

@[simp] theorem member_fill (a : α) : {lead : Dims} → (p : Place lead) → member (fill a (lead ++ s)) p = fill a s
  | [], _ => rfl
  | _ :: lead, p => by
      have hrow := row_fill (s := lead ++ s) a p.1
      exact (member_cons _ p).trans ((congrArg (member · p.2) hrow).trans (member_fill a p.2))

@[simp] theorem member_zeros [Zero α] (p : Place lead) : member (zeros (lead ++ s) : Tensor α (lead ++ s)) p = zeros s :=
  member_fill 0 p

/-- The sum of the products of matching entries, place by place. -/
theorem inner_eq_sum_member [CommRing α] : {lead : Dims} → (x y : Tensor α (lead ++ s)) →
    x.inner y = ∑ p : Place lead, (x.member p).inner (y.member p)
  | [], x, y => (Place.sum_nil fun p => (member x p).inner (member y p)).symm
  | n :: lead, x, y => by
      rw [Place.sum_cons]
      refine (inner_eq_sum_row (s := lead ++ s) x y).trans (Finset.sum_congr rfl fun i _ => ?_)
      rw [inner_eq_sum_member]
      exact Finset.sum_congr rfl fun p _ => by rw [member_cons, member_cons]

/-! ## Along leading axes -/

/-- A tensor repeated along leading axes. -/
theorem stretch?_append (x : Tensor α s) : (lead : Dims) → x.stretch? (lead ++ s) = some (join lead (fill x lead))
  | [] => stretch?_self x
  | n :: lead => by
      have hlonger : ¬ s = n :: (lead ++ s) := fun h => by
        have hlength := congrArg List.length h
        simp only [List.length_cons, List.length_append] at hlength
        omega
      have hshorter : s.length ≤ (lead ++ s).length := by simp
      have hstretch : x.stretch? (n :: (lead ++ s)) = (x.stretch? (lead ++ s)).map (Vector.replicate n) := by
        rw [stretch?, dif_neg hlonger]
        simp only [if_pos hshorter]
      have hjoin : join (n :: lead) (fill x (n :: lead)) = Vector.replicate n (join lead (fill x lead)) :=
        Vector.map_replicate
      rw [hjoin]
      refine hstretch.trans ?_
      rw [stretch?_append x lead, Option.map_some]

theorem traverse?_some : (s : Dims) → (x : Tensor α s) → x.traverse? some = some x
  | [], _ => rfl
  | _ :: s, x => by
      have hrows : (traverse? some : Tensor α s → Option (Tensor α s)) = some := funext (traverse?_some s)
      show Vector.mapM (traverse? some) x = some x
      rw [hrows]
      exact (Vector.mapM_pure (m := Option) fun r => r).trans (congrArg some (Vector.map_id' x))

theorem map_heq {T : Type} {F : T → Tensor β s} {G : T → Tensor β t} (hst : s = t) (h : ∀ r, HEq (F r) (G r))
    (x : Vector T n) : HEq (Vector.map F x) (Vector.map G x) := by
  subst hst
  obtain rfl : F = G := funext fun r => eq_of_heq (h r)
  rfl

/-- What a function makes of every row behind leading axes. -/
theorem foldLast_append (f : {n : Nat} → Tensor α [n] → β) : (lead : Dims) → (x : Tensor α (lead ++ [n])) →
    HEq (x.foldLast f) ((blocks lead x).map f)
  | [], _ => HEq.rfl
  | m :: lead, x => by
      have hfold : HEq (x.foldLast f) (Vector.map (fun r : Tensor α (lead ++ [n]) => r.foldLast f) x) := by
        cases lead <;> rfl
      have hblocks : (blocks (m :: lead) (s := [n]) x).map f = Vector.map (fun r => (blocks lead r).map f) x :=
        Vector.map_map
      rw [hblocks]
      exact hfold.trans (map_heq List.dropLast_concat (fun r => foldLast_append f lead r) x)

end Tensor

namespace AnyTensor

variable {α β γ : Type} {n : Nat} {s lead : Dims}

/-- Entries beside those of a tensor that lacks the leading axes. -/
theorem zipWith?_append (f : α → β → γ) (x : Tensor α (lead ++ s)) (y : Tensor β s) :
    zipWith? f ⟨lead ++ s, x⟩ ⟨s, y⟩ =
      some ⟨lead ++ s, Tensor.zipWith f x (Tensor.join lead (Tensor.fill y lead))⟩ := by
  simp [zipWith?, spread?, Dims.common?_append, Tensor.stretch?_self, Tensor.stretch?_append]

/-- The family along the leading axes, by their number. -/
theorem split_append {δ : Type} (F : (s : Dims) → AnyTensor (Tensor α s) → δ) (x : Tensor α (lead ++ s)) {k : Nat}
    (hk : k = lead.length) : F ((lead ++ s).drop k) (split ⟨lead ++ s, x⟩ k) = F s ⟨lead, Tensor.blocks lead x⟩ := by
  have hcast (lead' s' : Dims) (hlead : lead' = lead) (hs : s' = s) (h : lead ++ s = lead' ++ s') :
      F s' ⟨lead', Tensor.blocks lead' (h ▸ x)⟩ = F s ⟨lead, Tensor.blocks lead x⟩ := by
    subst hs hlead
    rfl
  have htake : (lead ++ s).take k = lead := by simp [hk]
  have hdrop : (lead ++ s).drop k = s := by simp [hk]
  exact hcast _ _ htake hdrop _

theorem foldLast_append (f : {n : Nat} → Tensor α [n] → β) (x : Tensor α (lead ++ [n])) :
    foldLast f ⟨lead ++ [n], x⟩ = ⟨lead, (Tensor.blocks lead x).map f⟩ := by
  rw [foldLast, mk.injEq]
  exact ⟨List.dropLast_concat, Tensor.foldLast_append f lead x⟩

theorem spreadBlocks?_append (x : Tensor α (lead ++ s)) :
    spreadBlocks? ⟨lead ++ s, x⟩ s = some ⟨lead, Tensor.blocks lead x⟩ := by
  have hrank : rank ⟨lead ++ s, x⟩ - s.length = lead.length := by simp [rank]
  have hkept : (fun block : Tensor α s => block.stretch? s) = some := funext Tensor.stretch?_self
  refine (split_append (fun t family => family.traverse? fun block : Tensor α t => block.stretch? s) x hrank).trans ?_
  rw [hkept, traverse?, Tensor.traverse?_some, Option.map_some]

/-- A sum along leading axes, entry by entry a sum over their places. -/
theorem sumLeading_append [Zero α] [Add α] (x : Tensor α (lead ++ s)) {k : Nat} (hk : k = lead.length) :
    sumLeading ⟨lead ++ s, x⟩ k = ⟨s, (Tensor.blocks lead x).foldl Tensor.add (Tensor.zeros s)⟩ :=
  split_append (fun t family => AnyTensor.mk t (family.value.foldl Tensor.add (Tensor.zeros t))) x hk

end AnyTensor

end LayerStack
