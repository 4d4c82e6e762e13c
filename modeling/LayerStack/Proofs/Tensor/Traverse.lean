import LayerStack.Tensor.Any

/-!
# LayerStack.Proofs.Tensor.Traverse

Functions that may fail, over all entries of a tensor.

Along an axis such a function has results where it has one at every place (`mapM_eq_some`), and two of them, one after the
other, are one (`mapM_bind`).  `Tensor.traverse?` runs along the first axis and, inside, along the others, so what holds of
`Vector.mapM` holds of it: a test of all entries passes where the fold of its outcomes does (`traverse?_guard`).
-/

namespace LayerStack.Tensor

variable {α β γ : Type} {n : Nat} {s : Dims}

/-! ## Along the first axis -/

theorem toList_mapM (f : α → Option β) (x : Vector α n) : Vector.toList <$> x.mapM f = x.toList.mapM f := by
  have harray : Vector.toArray <$> x.mapM f = x.toArray.mapM f := Vector.toArray_mapM
  have hlist : Array.toList <$> x.toArray.mapM f = x.toArray.toList.mapM f := Array.toList_mapM
  rw [← harray, Functor.map_map] at hlist
  exact hlist

/-- Results along an axis are equal if their lists are. -/
theorem eq_of_toList {a b : Option (Vector β n)} (h : Vector.toList <$> a = Vector.toList <$> b) : a = b :=
  Option.map_injective (fun _ _ hxy => Vector.toList_inj.mp hxy) h

theorem list_mapM_eq_some {f : α → Option β} {l : List α} {l' : List β} : l.mapM f = some l' ↔ l.map f = l'.map some := by
  induction l generalizing l' with
  | nil => cases l' <;> simp
  | cons a l ih =>
      have hcons : (a :: l).mapM f = some l' ↔ ∃ b, f a = some b ∧ ∃ bs, l.mapM f = some bs ∧ b :: bs = l' := by
        simp [List.mapM_cons, Option.bind_eq_some_iff]
      rw [hcons]
      cases l' with
      | nil => simp
      | cons b bs => simp [ih]

/-- A function has results along an axis where it has one at every place. -/
theorem mapM_eq_some {f : α → Option β} {x : Vector α n} {y : Vector β n} :
    x.mapM f = some y ↔ ∀ i : Fin n, f x[i] = some y[i] := by
  have hlists : x.mapM f = some y ↔ x.toList.mapM f = some y.toList := by
    rw [← toList_mapM]
    constructor
    · intro h
      rw [h]
      rfl
    · intro h
      exact eq_of_toList h
  rw [hlists, list_mapM_eq_some]
  constructor
  · intro h i
    have hi := congrArg (·[i.val]?) h
    simpa using hi
  · intro h
    refine List.ext_getElem (by simp) fun i hi _ => ?_
    have hlt : i < n := by simpa using hi
    simpa using h ⟨i, hlt⟩

theorem list_mapM_bind (f : α → Option β) (g : β → Option γ) (l : List α) :
    (l.mapM f).bind (List.mapM g) = l.mapM fun a => (f a).bind g := by
  induction l with
  | nil => rfl
  | cons a l ih =>
      simp only [List.mapM_cons, ← ih]
      cases f a with
      | none => rfl
      | some b =>
          cases l.mapM f with
          | none => cases hb : g b <;> simp [hb]
          | some bs => simp

/-- Two functions one after the other, along an axis. -/
theorem mapM_bind (f : α → Option β) (g : β → Option γ) (x : Vector α n) :
    (x.mapM f).bind (Vector.mapM g) = x.mapM fun a => (f a).bind g := by
  refine eq_of_toList ?_
  rw [toList_mapM, ← list_mapM_bind, ← toList_mapM]
  cases x.mapM f with
  | none => rfl
  | some y => exact toList_mapM g y

/-- Along an axis of some length a function that always fails has no results. -/
theorem mapM_none (hn : 0 < n) (x : Vector α n) : x.mapM (fun _ => (none : Option β)) = none := by
  refine eq_of_toList ?_
  rw [toList_mapM]
  have hne : x.toList ≠ [] := by
    rw [← List.length_pos_iff, Vector.length_toList]
    exact hn
  obtain ⟨a, l, hx⟩ := List.exists_cons_of_ne_nil hne
  rw [hx]
  rfl

theorem list_foldl_and (p : α → Bool) (l : List α) (b : Bool) : l.foldl (fun ok a => ok && p a) b = (b && l.all p) := by
  induction l generalizing b with
  | nil => simp
  | cons a l ih => rw [List.foldl_cons, ih, List.all_cons, Bool.and_assoc]

theorem list_mapM_guard (p : α → Bool) (l : List α) : l.mapM (Option.guard p) = if l.all p then some l else none := by
  induction l with
  | nil => rfl
  | cons a l ih => cases ha : p a <;> cases hl : l.all p <;> simp [List.mapM_cons, ih, Option.guard, ha, hl]

/-- A test along an axis lets all pass where the fold of its outcomes does. -/
theorem mapM_guard (p : α → Bool) (x : Vector α n) :
    x.mapM (Option.guard p) = if x.foldl (fun ok a => ok && p a) true then some x else none := by
  refine eq_of_toList ?_
  rw [toList_mapM, list_mapM_guard, ← Vector.foldl_toList, list_foldl_and]
  cases x.toList.all p <;> rfl

/-! ## All entries -/

/-- A fold of outcomes over all entries is one over the rows of those over each of them. -/
theorem foldl_and (p : α → Bool) : (s : Dims) → (x : Tensor α s) → (b : Bool) →
    x.foldl (fun ok a => ok && p a) b = (b && x.foldl (fun ok a => ok && p a) true)
  | [], a, b => by simp [foldl]
  | _ :: s, x, b => by
      have hrows (ok : Bool) (r : Tensor α s) : foldl (fun ok a => ok && p a) (b && ok) r =
          (b && foldl (fun ok a => ok && p a) ok r) := by
        rw [foldl_and p s r, foldl_and p s r ok, Bool.and_assoc]
      have hfold : Vector.foldl (fun acc r => foldl (fun ok a => ok && p a) acc r) (b && true) x =
          (b && Vector.foldl (fun acc r => foldl (fun ok a => ok && p a) acc r) true x) :=
        Vector.foldl_hom (b && ·) hrows
      rw [Bool.and_true] at hfold
      exact hfold

/-- A test lets all entries pass where the fold of its outcomes does. -/
theorem traverse?_guard (p : α → Bool) : (s : Dims) → (x : Tensor α s) →
    x.traverse? (Option.guard p) = if x.foldl (fun ok a => ok && p a) true then some x else none
  | [], a => by simp [traverse?, foldl, Option.guard]
  | _ :: s, x => by
      have hrows : (traverse? (Option.guard p) : Tensor α s → Option (Tensor α s)) =
          Option.guard fun r => r.foldl (fun ok a => ok && p a) true := by
        funext r
        exact traverse?_guard p s r
      have hfold : (fun (ok : Bool) (r : Tensor α s) => r.foldl (fun ok a => ok && p a) ok) =
          fun ok r => ok && r.foldl (fun ok a => ok && p a) true := by
        funext ok r
        exact foldl_and p s r ok
      show Vector.mapM (traverse? (Option.guard p)) x =
        if Vector.foldl (fun acc r => foldl _ acc r) true x then some x else none
      rw [hrows, hfold]
      exact mapM_guard _ x

end LayerStack.Tensor
