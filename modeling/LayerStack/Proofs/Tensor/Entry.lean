import Mathlib.Algebra.BigOperators.Ring.Finset
import Mathlib.Tactic.Ring
import LayerStack.Proofs.Scalar.Exact
import LayerStack.Tensor

/-!
# LayerStack.Proofs.Tensor.Entry

Tensors read row by row and entry by entry.

Each operation on tensors has a lemma for a row of what it makes, and one for an entry where its rows are numbers.  In
exact arithmetic the sum of all entries is the sum of the sums of the rows, and so is the sum of the products of matching
entries (`inner`), which is how a gradient meets a change.
-/

namespace LayerStack.Tensor

variable {α β γ : Type} {n m k : Nat} {s t : Dims}

/-! ## Rows and entries -/

/-- Tensors with the same rows are the same. -/
theorem ext_row {x y : Tensor α (n :: s)} (h : ∀ i, x.row i = y.row i) : x = y :=
  Vector.ext fun i hi => h ⟨i, hi⟩

theorem ext_entry {x y : Tensor α [n]} (h : ∀ i, x.entry i = y.entry i) : x = y :=
  Vector.ext fun i hi => h ⟨i, hi⟩

@[simp] theorem row_ofFn (f : Fin n → Tensor α s) (i : Fin n) : (ofFn f).row i = f i := Vector.getElem_ofFn i.isLt

@[simp] theorem entry_ofEntries (f : Fin n → α) (i : Fin n) : (ofEntries f).entry i = f i := Vector.getElem_ofFn i.isLt

@[simp] theorem row_mapRows (f : Tensor α s → Tensor β t) (x : Tensor α (n :: s)) (i : Fin n) :
    (x.mapRows f).row i = f (x.row i) :=
  Vector.getElem_map f i.isLt

@[simp] theorem row_map (f : α → β) (x : Tensor α (n :: s)) (i : Fin n) : (x.map f).row i = (x.row i).map f :=
  Vector.getElem_map (map f) i.isLt

@[simp] theorem entry_map (f : α → β) (x : Tensor α [n]) (i : Fin n) : (x.map f).entry i = f (x.entry i) :=
  Vector.getElem_map (map f (s := [])) i.isLt

@[simp] theorem row_zipWith (f : α → β → γ) (x : Tensor α (n :: s)) (y : Tensor β (n :: s)) (i : Fin n) :
    (zipWith f x y).row i = zipWith f (x.row i) (y.row i) :=
  Vector.getElem_zipWith i.isLt

@[simp] theorem entry_zipWith (f : α → β → γ) (x : Tensor α [n]) (y : Tensor β [n]) (i : Fin n) :
    (zipWith f x y).entry i = f (x.entry i) (y.entry i) :=
  Vector.getElem_zipWith (f := zipWith f (s := [])) i.isLt

@[simp] theorem row_fill (a : α) (i : Fin n) : (fill a (n :: s)).row i = fill a s := Vector.getElem_replicate i.isLt

@[simp] theorem entry_fill (a : α) (i : Fin n) : entry (fill a [n]) i = a := Vector.getElem_replicate i.isLt

@[simp] theorem row_add [Add α] (x y : Tensor α (n :: s)) (i : Fin n) : (x.add y).row i = (x.row i).add (y.row i) :=
  row_zipWith _ x y i

@[simp] theorem entry_add [Add α] (x y : Tensor α [n]) (i : Fin n) : (x.add y).entry i = x.entry i + y.entry i :=
  entry_zipWith _ x y i

@[simp] theorem row_zeros [Zero α] (i : Fin n) : row (zeros (n :: s) : Tensor α (n :: s)) i = zeros s := row_fill 0 i

@[simp] theorem entry_zeros [Zero α] (i : Fin n) : entry (zeros [n] : Tensor α [n]) i = 0 := entry_fill 0 i

@[simp] theorem entry_mapRows (f : Tensor α s → β) (x : Tensor α (n :: s)) (i : Fin n) :
    (mapRows (t := []) f x).entry i = f (x.row i) :=
  Vector.getElem_map f i.isLt

theorem map_ofEntries (f : α → β) (e : Fin n → α) : (ofEntries e).map f = ofEntries fun i => f (e i) :=
  ext_entry fun i => by rw [entry_map, entry_ofEntries, entry_ofEntries]

theorem zipWith_eq_ofEntries (f : α → β → γ) (x : Tensor α [n]) (y : Tensor β [n]) :
    zipWith f x y = ofEntries fun i => f (x.entry i) (y.entry i) :=
  ext_entry fun i => by rw [entry_zipWith, entry_ofEntries]

@[simp] theorem entry_row_ofMatrix (f : Fin n → Fin m → α) (i : Fin n) (j : Fin m) :
    ((ofMatrix f).row i).entry j = f i j := by
  rw [ofMatrix, row_ofFn, entry_ofEntries]

/-- The difference of two tensors. -/
def sub [Sub α] (x y : Tensor α s) : Tensor α s := zipWith (· - ·) x y

@[simp] theorem row_sub [Sub α] (x y : Tensor α (n :: s)) (i : Fin n) : (x.sub y).row i = (x.row i).sub (y.row i) :=
  row_zipWith _ x y i

@[simp] theorem entry_sub [Sub α] (x y : Tensor α [n]) (i : Fin n) : (x.sub y).entry i = x.entry i - y.entry i :=
  entry_zipWith _ x y i

/-- A function that changes no entry changes no tensor. -/
theorem map_eq_self {f : α → α} (hf : ∀ a, f a = a) : {s : Dims} → (x : Tensor α s) → x.map f = x
  | [], a => hf a
  | _ :: _, x => ext_row fun i => (row_map f x i).trans (map_eq_self hf (row x i))

/-! ## Sums -/

/-- A sum along an axis that starts from some number. -/
theorem foldl_eq_sum [AddCommMonoid β] (f : α → β) (x : Vector α n) (b : β) :
    x.foldl (fun acc a => acc + f a) b = b + ∑ i, f (x.get i) := by
  have hlist (l : List α) (b : β) : l.foldl (fun acc a => acc + f a) b = b + (l.map f).sum := by
    induction l generalizing b with
    | nil => simp
    | cons a l ih => rw [List.foldl_cons, ih, List.map_cons, List.sum_cons, add_assoc]
  have hrows : (x.toList.map f).sum = ∑ i, f (x.get i) := by
    rw [← List.sum_ofFn]
    congr 1
    refine List.ext_getElem (by simp) fun i hi hi' => ?_
    rw [List.getElem_map, List.getElem_ofFn]
    rfl
  rw [← Vector.foldl_toList, hlist, hrows]

/-- What a fold makes of a row of things is a sum over them, if every step adds its own part to it. -/
theorem foldl_eq_sum_of_step {M : Type} [AddCommMonoid M] (P : β → Prop) (φ : β → M) (ψ : α → M) {f : β → α → β}
    (hstep : ∀ b a, P b → P (f b a) ∧ φ (f b a) = φ b + ψ a) (x : Tensor α [n]) {b : β} (hb : P b) :
    P (x.foldl f b) ∧ φ (x.foldl f b) = φ b + ∑ i, ψ (x.entry i) := by
  have hlist (l : List α) {b : β} (hb : P b) :
      P (l.foldl f b) ∧ φ (l.foldl f b) = l.foldl (fun acc a => acc + ψ a) (φ b) := by
    induction l generalizing b with
    | nil => exact ⟨hb, rfl⟩
    | cons a l ih =>
        obtain ⟨hkept, hadds⟩ := hstep b a hb
        rw [List.foldl_cons, List.foldl_cons, ← hadds]
        exact ih hkept
  have hsum : (Vector.toList x).foldl (fun acc a => acc + ψ a) (φ b) = φ b + ∑ i, ψ (x.entry i) := by
    rw [Vector.foldl_toList]
    exact foldl_eq_sum ψ x (φ b)
  have hfold : x.foldl f b = (Vector.toList x).foldl f b := (Vector.foldl_toList f).symm
  rw [hfold, ← hsum]
  exact hlist _ hb

/-- A sum of all entries that starts from some number. -/
theorem foldl_eq_add_total [AddCommMonoid α] : {s : Dims} → (x : Tensor α s) → (a : α) →
    x.foldl (· + ·) a = a + x.total
  | [], x, a => congrArg (a + ·) (zero_add x).symm
  | n :: s, x, a => by
      have hrows : (fun (acc : α) (r : Tensor α s) => r.foldl (· + ·) acc) = fun acc r => acc + r.total := by
        funext acc r
        exact foldl_eq_add_total r acc
      have hfold (b : α) : x.foldl (· + ·) b = b + ∑ i, total (row x i) := by
        rw [foldl, hrows]
        exact foldl_eq_sum total x b
      rw [total, hfold, hfold, zero_add]

/-- The sum of all entries is the sum of the sums of the rows. -/
theorem total_eq_sum_row [AddCommMonoid α] (x : Tensor α (n :: s)) : x.total = ∑ i, (x.row i).total := by
  have hrows : (fun (acc : α) (r : Tensor α s) => r.foldl (· + ·) acc) = fun acc r => acc + r.total := by
    funext acc r
    exact foldl_eq_add_total r acc
  rw [total, foldl, hrows]
  exact (foldl_eq_sum total x 0).trans (zero_add _)

theorem total_eq_sum_entry [AddCommMonoid α] (x : Tensor α [n]) : x.total = ∑ i, x.entry i := by
  rw [total_eq_sum_row]
  exact Finset.sum_congr rfl fun i _ => zero_add _

/-! ## Matching entries -/

/-- The sum of the products of matching entries. -/
def inner [Zero α] [Add α] [Mul α] (x y : Tensor α s) : α := (zipWith (· * ·) x y).total

section Inner

variable [CommRing α]

theorem inner_eq_sum_row (x y : Tensor α (n :: s)) : x.inner y = ∑ i, (x.row i).inner (y.row i) := by
  simp only [inner, total_eq_sum_row, row_zipWith]

theorem inner_eq_sum_entry (x y : Tensor α [n]) : x.inner y = ∑ i, x.entry i * y.entry i := by
  simp only [inner, total_eq_sum_entry, entry_zipWith]

theorem dot_eq_sum_entry (x y : Tensor α [n]) : x.dot y = ∑ i, x.entry i * y.entry i := Scalar.sum_eq_sum n _

/-- Changes add up under a gradient. -/
theorem inner_add : {s : Dims} → (x y z : Tensor α s) → x.inner (y.add z) = x.inner y + x.inner z
  | [], x, y, z => by
      show 0 + x * (y + z) = (0 + x * y) + (0 + x * z)
      ring
  | n :: s, x, y, z => by
      simp only [inner_eq_sum_row, row_add, inner_add, Finset.sum_add_distrib]

theorem inner_comm : {s : Dims} → (x y : Tensor α s) → x.inner y = y.inner x
  | [], x, y => congrArg (0 + ·) (mul_comm (a := (x : α)) y)
  | n :: s, x, y => by
      rw [inner_eq_sum_row, inner_eq_sum_row]
      exact Finset.sum_congr rfl fun i _ => inner_comm _ _

@[simp] theorem zeros_inner : {s : Dims} → (x : Tensor α s) → (zeros s).inner x = 0
  | [], x => by
      show 0 + 0 * (x : α) = 0
      ring
  | n :: s, x => by
      simp only [inner_eq_sum_row, row_zeros, zeros_inner, Finset.sum_const_zero]

theorem add_inner (x y z : Tensor α s) : (x.add y).inner z = x.inner z + y.inner z := by
  rw [inner_comm, inner_add, inner_comm z x, inner_comm z y]

end Inner

end LayerStack.Tensor
