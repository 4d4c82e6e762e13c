import LayerStack.Proofs.Tensor.Place

/-!
# LayerStack.Proofs.Tensor.Reshape

The same entries along other axes.

The entries of a tensor in row-major order are those of its rows, one row behind the other (`entries_cons`), and there are
as many as its volume (`length_entries`).  A tensor that is made of a function of the position has the values of that
function in this order (`entries_generate`), so axes of the same volume keep every entry at its position
(`entries_reshape`).

The position of a place is written in mixed radix, with the volume of the axes behind as the radix of each.  A place along
other axes has the same entry where its position is the same (`pick_reshape`).
-/

namespace LayerStack

/-- The position of a place in row-major order. -/
def Place.position : {s : Dims} → Place s → Nat
  | [], _ => 0
  | _ :: s, p => p.1 * Dims.volume s + position (s := s) p.2

namespace Tensor

variable {α β : Type} {n : Nat} {s t : Dims}

/-- The entries in row-major order. -/
def entries (x : Tensor α s) : List α := x.toArray.toList

/-- What is put behind the things found so far, row by row. -/
theorem foldl_append {step : Array α → β → Array α} {found : β → List α}
    (hstep : ∀ all r, (step all r).toList = all.toList ++ found r) (rows : List β) (all : Array α) :
    (rows.foldl step all).toList = all.toList ++ (rows.map found).flatten := by
  induction rows generalizing all with
  | nil => simp
  | cons r rows ih => rw [List.foldl_cons, ih, hstep, List.map_cons, List.flatten_cons, List.append_assoc]

/-- Going through a tensor puts its entries behind those found so far. -/
theorem foldl_push : {s : Dims} → (x : Tensor α s) → (all : Array α) →
    (x.foldl Array.push all).toList = all.toList ++ x.entries
  | [], a, all => by simp [foldl, entries, toArray]
  | n :: s, x, all => by
      have hfold (all : Array α) : x.foldl Array.push all =
          (Vector.toList x).foldl (fun all r => foldl Array.push all r) all := (Vector.foldl_toList _).symm
      have hrows := foldl_append (fun all (r : Tensor α s) => foldl_push r all) (Vector.toList x)
      rw [entries, toArray, hfold, hfold, hrows, hrows, List.nil_append]

theorem entries_cons (x : Tensor α (n :: s)) : x.entries = (List.ofFn fun i => (x.row i).entries).flatten := by
  have hfold : x.toArray = (Vector.toList x).foldl (fun all r => foldl Array.push all r) #[] :=
    (Vector.foldl_toList _).symm
  have hrows := foldl_append (fun all (r : Tensor α s) => foldl_push r all) (Vector.toList x) #[]
  have hlist : (Vector.toList x).map entries = List.ofFn fun i => (x.row i).entries := by
    refine List.ext_getElem (by simp) fun i hi hi' => ?_
    rw [List.getElem_map, List.getElem_ofFn]
    rfl
  rw [entries, hfold, hrows, List.nil_append, hlist]

/-- The entries of a row of numbers are its items. -/
theorem toArray_row (x : Tensor α [n]) : x.toArray = Vector.toArray x := by
  have hfold : x.toArray = (Vector.toList x).foldl Array.push #[] := (Vector.foldl_toList _).symm
  have hpush : ∀ (all : Array α) (a : α), (all.push a).toList = all.toList ++ [a] := fun _ _ => Array.toList_push
  have hrows := foldl_append hpush (Vector.toList x) #[]
  refine Array.toList_inj.mp ?_
  rw [hfold, hrows, ← List.flatMap_def, List.flatMap_singleton']
  rfl

theorem length_entries : {s : Dims} → (x : Tensor α s) → x.entries.length = Dims.volume s
  | [], _ => rfl
  | n :: s, x => by
      have hlengths : (fun i => (x.row i).entries.length) = fun _ : Fin n => Dims.volume s :=
        funext fun i => length_entries _
      rw [entries_cons, List.length_flatten, List.map_ofFn, Function.comp_def, hlengths, List.sum_ofFn]
      simp [Dims.volume]

/-- Windows of a range, one behind the other, make the range. -/
theorem flatten_windows (f : Nat → α) (n k : Nat) :
    (List.ofFn fun i : Fin n => (List.range k).map fun j => f (i * k + j)).flatten = (List.range (n * k)).map f := by
  induction n with
  | zero => simp
  | succ n ih =>
      rw [List.ofFn_succ', List.concat_eq_append, List.flatten_append, Nat.succ_mul, List.range_add, List.map_append]
      simp only [Fin.val_castSucc, Fin.val_last, ih, List.flatten_singleton, List.map_map, Function.comp_def]

/-- The entries of a tensor that is made of a function are its values from the first position on. -/
theorem entries_generate : (s : Dims) → (f : Nat → α) → (generate f s).entries = (List.range (Dims.volume s)).map f
  | [], _ => rfl
  | n :: s, f => by
      have hrow (i : Fin n) : (row (generate f (n :: s)) i).entries =
          (List.range (Dims.volume s)).map fun j => f (i * Dims.volume s + j) := by
        have hgenerate : row (generate f (n :: s)) i = generate (fun k => f (i * Dims.volume s + k)) s :=
          Vector.getElem_ofFn i.isLt
        rw [hgenerate, entries_generate s]
      have hvolume : Dims.volume (n :: s) = n * Dims.volume s := rfl
      rw [entries_cons, funext hrow, flatten_windows, hvolume]

/-- A tensor that is made of as many entries as its axes have has these. -/
theorem entries_ofArray [Zero α] {entries : Array α} (h : entries.size = Dims.volume s) :
    (ofArray s entries).entries = entries.toList := by
  rw [ofArray, entries_generate, ← h]
  refine List.ext_getElem (by simp) fun i hi hi' => ?_
  have hposition : i < entries.size := hi'
  rw [List.getElem_map, List.getElem_range, Array.getD, dif_pos hposition]
  rfl

/-- Axes of the same volume keep every entry at its position. -/
theorem entries_reshape [Zero α] (h : Dims.volume t = Dims.volume s) (x : Tensor α s) : (x.reshape t).entries = x.entries :=
  entries_ofArray ((length_entries x).trans h.symm)

/-! ## Places -/

theorem pick_generate : (s : Dims) → (f : Nat → α) → (p : Place s) → (generate f s).pick p = f p.position
  | [], _, _ => rfl
  | n :: s, f, p => by
      have hrow : row (generate f (n :: s)) p.1 = generate (fun k => f (p.1 * Dims.volume s + k)) s :=
        Vector.getElem_ofFn p.1.isLt
      rw [pick, hrow, pick_generate s, Place.position]

/-- Tensors with the same entries in row-major order are the same: all rows have as many. -/
theorem entries_injective : {s : Dims} → {x y : Tensor α s} → x.entries = y.entries → x = y
  | [], _, _, h => List.singleton_inj.mp h
  | n :: s, x, y, h => by
      have hlength (z : Tensor α (n :: s)) :
          (List.ofFn fun i => (z.row i).entries).map List.length = List.ofFn fun _ : Fin n => Dims.volume s := by
        rw [List.map_ofFn]
        exact congrArg List.ofFn (funext fun i => length_entries (z.row i))
      rw [entries_cons, entries_cons] at h
      have hrows := List.eq_iff_flatten_eq.mpr ⟨h, (hlength x).trans (hlength y).symm⟩
      exact ext_row fun i => entries_injective (congrFun (List.ofFn_injective hrows) i)

section Reshape

variable [Zero α]

theorem reshape_reshape (h : Dims.volume t = Dims.volume s) (x : Tensor α s) : (x.reshape t).reshape s = x :=
  entries_injective ((entries_reshape h.symm _).trans (entries_reshape h x))

theorem reshape_self (x : Tensor α s) : x.reshape s = x := entries_injective (entries_reshape rfl x)

/-- On other axes an entry is where its position is. -/
theorem pick_reshape (x : Tensor α s) {p : Place s} {q : Place t} (h : q.position = p.position) :
    (x.reshape t).pick q = x.pick p := by
  conv => rhs; rw [← reshape_self x]
  simp only [reshape, ofArray, pick_generate, h]

end Reshape

end Tensor

end LayerStack
