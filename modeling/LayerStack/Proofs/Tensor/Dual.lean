import LayerStack.Proofs.Scalar.Dual
import LayerStack.Proofs.Tensor.Entry
import LayerStack.Proofs.Tensor.Sample

/-!
# LayerStack.Proofs.Tensor.Dual

Functions of tensors and their derivatives.

A tensor of dual numbers is a tensor of real numbers (`values`) that moves in some direction (`slopes`).  A function that
is run on one passes it on together with the derivative in that direction.  `Transposes` says of a way back that it is the
transpose of that derivative: a gradient of the result comes to the same under the derivative in any direction as what it
passes back comes to under the direction itself.  Functions with such a way back follow one another (`comp`), are added to
what they were given (`residual`) and run over rows (`rows`), and the ways back do so the other way round.
-/

namespace LayerStack

noncomputable section

namespace Tensor

variable {α β γ δ : Type} {n m : Nat} {s t u : Dims}

/-! ## Entry by entry -/

theorem map_zipWith (f : γ → δ) (g : α → β → γ) : {s : Dims} → (x : Tensor α s) → (y : Tensor β s) →
    (zipWith g x y).map f = zipWith (fun a b => f (g a b)) x y
  | [], _, _ => rfl
  | _ :: _, x, y => ext_row fun i => by rw [row_map, row_zipWith, row_zipWith, map_zipWith f g (row x i)]

theorem zipWith_map_map {α' β' : Type} (g : α' → β' → γ) (f : α → α') (f' : β → β') : {s : Dims} → (x : Tensor α s) →
    (y : Tensor β s) → zipWith g (x.map f) (y.map f') = zipWith (fun a b => g (f a) (f' b)) x y
  | [], _, _ => rfl
  | _ :: _, x, y => ext_row fun i => by
      rw [row_zipWith, row_zipWith, row_map, row_map, zipWith_map_map g f f' (row x i)]

/-! ## Values and slopes -/

def values (x : Tensor Dual s) : Tensor ℝ s := x.map Dual.value

def slopes (x : Tensor Dual s) : Tensor ℝ s := x.map Dual.slope

/-- A tensor that does not move. -/
def constants (x : Tensor ℝ s) : Tensor Dual s := x.map Dual.constant

/-- A tensor that moves in a direction. -/
def along (x v : Tensor ℝ s) : Tensor Dual s := zipWith Dual.mk x v

@[simp] theorem row_values (x : Tensor Dual (n :: s)) (i : Fin n) : x.values.row i = (x.row i).values := row_map _ x i

@[simp] theorem row_slopes (x : Tensor Dual (n :: s)) (i : Fin n) : x.slopes.row i = (x.row i).slopes := row_map _ x i

@[simp] theorem row_constants (x : Tensor ℝ (n :: s)) (i : Fin n) : x.constants.row i = (x.row i).constants :=
  row_map _ x i

@[simp] theorem entry_values (x : Tensor Dual [n]) (i : Fin n) : x.values.entry i = (x.entry i).value := entry_map _ x i

@[simp] theorem entry_slopes (x : Tensor Dual [n]) (i : Fin n) : x.slopes.entry i = (x.entry i).slope := entry_map _ x i

@[simp] theorem entry_constants (x : Tensor ℝ [n]) (i : Fin n) : x.constants.entry i = Dual.constant (x.entry i) :=
  entry_map _ x i

@[simp] theorem row_along (x v : Tensor ℝ (n :: s)) (i : Fin n) : (x.along v).row i = (x.row i).along (v.row i) :=
  row_zipWith _ x v i

theorem values_along : {s : Dims} → (x v : Tensor ℝ s) → (x.along v).values = x
  | [], _, _ => rfl
  | _ :: _, x, v => ext_row fun i => by rw [row_values, row_along, values_along]

theorem slopes_along : {s : Dims} → (x v : Tensor ℝ s) → (x.along v).slopes = v
  | [], _, _ => rfl
  | _ :: _, x, v => ext_row fun i => by rw [row_slopes, row_along, slopes_along]

/-- A tensor moves in one direction from where it is. -/
theorem along_eq : {s : Dims} → (x : Tensor Dual s) → x.values.along x.slopes = x
  | [], _ => rfl
  | _ :: _, x => ext_row fun i => by rw [row_along, row_values, row_slopes, along_eq]

theorem values_add (x y : Tensor Dual s) : (x.add y).values = x.values.add y.values := by
  rw [values, values, values, add, add, map_zipWith, zipWith_map_map]
  rfl

theorem slopes_add (x y : Tensor Dual s) : (x.add y).slopes = x.slopes.add y.slopes := by
  rw [slopes, slopes, slopes, add, add, map_zipWith, zipWith_map_map]
  rfl

/-! ## Transposes -/

/-- A function that on dual numbers has the values that it has on real ones, and whose way back from a gradient is the
transpose of its derivative. -/
structure Transposes (run : Tensor Dual s → Tensor Dual t) (f : Tensor ℝ s → Tensor ℝ t)
    (back : Tensor ℝ s → Tensor ℝ t → Tensor ℝ s) : Prop where
  values : ∀ X, (run X).values = f X.values
  slopes : ∀ X g, g.inner (run X).slopes = (back X.values g).inner X.slopes

namespace Transposes

variable {F : Tensor Dual s → Tensor Dual t} {f : Tensor ℝ s → Tensor ℝ t} {f' : Tensor ℝ s → Tensor ℝ t → Tensor ℝ s}
  {H : Tensor Dual t → Tensor Dual u} {h : Tensor ℝ t → Tensor ℝ u} {h' : Tensor ℝ t → Tensor ℝ u → Tensor ℝ t}

/-- One function after another: back through the second and then through the first. -/
theorem comp (hF : Transposes F f f') (hH : Transposes H h h') :
    Transposes (fun X => H (F X)) (fun x => h (f x)) fun x g => f' x (h' (f x) g) where
  values X := by rw [hH.values, hF.values]
  slopes X g := by rw [hH.slopes, hF.slopes, hF.values]

/-- A function added to what it was given: the gradient goes back both ways. -/
theorem residual {F : Tensor Dual s → Tensor Dual s} {f : Tensor ℝ s → Tensor ℝ s}
    {f' : Tensor ℝ s → Tensor ℝ s → Tensor ℝ s} (hF : Transposes F f f') :
    Transposes (fun X => X.add (F X)) (fun x => x.add (f x)) fun x g => g.add (f' x g) where
  values X := by rw [values_add, hF.values]
  slopes X g := by rw [slopes_add, inner_add, add_inner, hF.slopes]

/-- A function of every row. -/
theorem rows {F : Fin n → Tensor Dual s → Tensor Dual t} {f : Fin n → Tensor ℝ s → Tensor ℝ t}
    {f' : Fin n → Tensor ℝ s → Tensor ℝ t → Tensor ℝ s} (hF : ∀ i, Transposes (F i) (f i) (f' i)) :
    Transposes (s := n :: s) (t := n :: t) (fun X => ofFn fun i => F i (X.row i)) (fun x => ofFn fun i => f i (x.row i))
      fun x g => ofFn fun i => f' i (x.row i) (g.row i) where
  values X := ext_row fun i => by rw [row_values, row_ofFn, row_ofFn, (hF i).values, row_values]
  slopes X g := by
    rw [inner_eq_sum_row, inner_eq_sum_row]
    refine Finset.sum_congr rfl fun i _ => ?_
    rw [row_slopes, row_ofFn, (hF i).slopes, row_ofFn, row_slopes, row_values]

/-- One function of every row. -/
theorem mapRows {back : Tensor ℝ t → Tensor ℝ s} (hF : Transposes F f fun _ g => back g) (n : Nat) :
    Transposes (Tensor.mapRows (n := n) F) (Tensor.mapRows f) fun _ g => Tensor.mapRows back g where
  values X := ext_row fun i => by rw [row_values, row_mapRows, row_mapRows, hF.values, row_values]
  slopes X g := by
    rw [inner_eq_sum_row, inner_eq_sum_row]
    refine Finset.sum_congr rfl fun i _ => ?_
    rw [row_slopes, row_mapRows, hF.slopes, row_mapRows, row_slopes]

end Transposes

end Tensor

end

end LayerStack
