import LayerStack.Proofs.Scalar.Exact
import LayerStack.Proofs.Shape.Cover

/-!
# LayerStack.Proofs.Operator.Window

Where the taps of windows lie.

Windows that advance by at least one cell are `Proper`.  Of such windows, tap `i` of window `y` lies on cell `r` exactly
where `y * stride + i = r + before` (`OnCell`).  The two ways an operator reads that relation, from the window and from
the cell, agree (`cell?_eq_some`, `window?_eq_some`), so a sum over windows of what their taps lie on is one over cells of
the windows that have a tap there (`sum_cell?`).  And every window has a tap on some cell (`exists_onCell`).

The windows of a layer are proper whatever sizes it may be given (`proper_ofSizes`), and there are as many as the shape rule
counts; a layer accepts the images over which that finds any (`Accepts`).
-/

namespace LayerStack

namespace WindowAxis

variable {a : WindowAxis} {padding : Padding} {size : Nat}

/-- Windows of at least one cell that advance by at least one cell. -/
structure Proper (a : WindowAxis) : Prop where
  kernel_pos : 1 ≤ a.kernel
  stride_pos : 1 ≤ a.stride
  forwards : a.backwards = false

/-- Tap `i` of window `y` lies on cell `r`. -/
def OnCell (a : WindowAxis) (padding : Padding) {size : Nat} (y i : Nat) (r : Fin size) : Prop :=
  y * a.stride + i = r + a.before padding size

instance (y i : Nat) (r : Fin size) : Decidable (a.OnCell padding y i r) := inferInstanceAs (Decidable (_ = _))

/-- A tap lies on one cell, and later taps lie on later cells. -/
theorem OnCell.le_iff {y i i' : Nat} {r r' : Fin size} (h : a.OnCell padding y i r) (h' : a.OnCell padding y i' r') :
    r ≤ r' ↔ i ≤ i' := by
  unfold OnCell at h h'
  omega

/-- Windows that advance start a stride apart. -/
theorem start_eq (ha : a.backwards = false) (padding : Padding) (size y : Nat) :
    a.start padding size y = y * a.stride := by
  simp [start, ha]

theorem cell?_eq_some (ha : a.Proper) {y i : Nat} {r : Fin size} :
    a.cell? padding y i = some r ↔ a.OnCell padding y i r := by
  unfold cell? OnCell
  simp only [start_eq ha.forwards]
  have hr := r.isLt
  split
  · next h =>
      simp only [Option.some_inj, Fin.ext_iff]
      omega
  · next h =>
      simp only [reduceCtorEq, false_iff]
      omega

theorem window?_eq_some (ha : a.Proper) {i : Nat} {r : Fin size} {y : Fin (a.count padding size)} :
    a.window? padding r i = some y ↔ a.OnCell padding y i r := by
  have hstride : 0 < a.stride := ha.stride_pos
  -- Past the tap, the cell is as many strides along the padded axis as there are windows before its own.
  have hplace (h : a.OnCell padding y i r) : r + a.before padding size - i = y * a.stride := by
    unfold OnCell at h
    omega
  unfold window?
  simp only [ha.forwards, Bool.false_eq_true, if_false]
  split
  · next h =>
      obtain ⟨hle, hmod, _⟩ := h
      have hwhole := Nat.div_mul_cancel (Nat.dvd_of_mod_eq_zero hmod)
      simp only [Option.some_inj, Fin.ext_iff]
      constructor
      · intro hy
        rw [hy] at hwhole
        unfold OnCell
        omega
      · intro hy
        simp only [hplace hy, Nat.mul_div_cancel _ hstride]
  · next h =>
      simp only [reduceCtorEq, false_iff]
      intro hy
      have hle : i ≤ r + a.before padding size := by
        unfold OnCell at hy
        omega
      rw [hplace hy, Nat.mul_div_cancel _ hstride, Nat.mul_mod_left] at h
      exact h ⟨hle, rfl, y.isLt⟩

/-- Every window has a tap on some cell: it lies inside the padded axis, and there is less padding than it has taps. -/
theorem exists_onCell (ha : a.Proper) {y : Nat} (hy : y < a.count padding size) :
    ∃ i < a.kernel, ∃ r : Fin size, a.OnCell padding y i r := by
  have hless := margins_lt ha.kernel_pos ha.stride_pos ha.forwards padding size
  have hstart := (mem_windowStarts_iff ha.stride_pos ha.forwards).mpr ⟨y, hy, rfl⟩
  rw [padded, Nat.cast_add, Nat.cast_add] at hstart
  obtain ⟨c, ⟨hbefore, hafter⟩, hfirst, hlast⟩ := exists_cell (by omega) (by omega) (by omega) hstart
  rw [start_eq ha.forwards] at hfirst hlast
  refine ⟨(c - (y * a.stride : Nat)).toNat, by omega, ⟨(c - (a.margins padding size).1).toNat, by omega⟩, ?_⟩
  simp only [OnCell, before]
  omega

end WindowAxis

namespace WindowGrid

variable {g : WindowGrid} {h w : Nat}

/-- Windows that advance along both axes. -/
structure Proper (g : WindowGrid) : Prop where
  rows : g.rows.Proper
  columns : g.columns.Proper

/-- The way back through such windows is open. -/
theorem returns_of_proper (hg : g.Proper) (rows columns : Nat) : g.returns rows columns = true := by
  simp [returns, WindowAxis.returns, hg.rows.forwards, hg.columns.forwards]

/-- A layer accepts an image where its rule counts at least one window along either axis. -/
def Accepts (g : WindowGrid) (h w : Nat) : Prop :=
  1 ≤ windowCount h g.rows.kernel g.rows.stride g.padding ∧ 1 ≤ windowCount w g.columns.kernel g.columns.stride g.padding

theorem outHeight_eq (hg : g.Proper) (h : Nat) :
    g.outHeight h = (windowCount h g.rows.kernel g.rows.stride g.padding).toNat :=
  WindowAxis.count_eq hg.rows.kernel_pos hg.rows.stride_pos hg.rows.forwards g.padding h

theorem outWidth_eq (hg : g.Proper) (w : Nat) :
    g.outWidth w = (windowCount w g.columns.kernel g.columns.stride g.padding).toNat :=
  WindowAxis.count_eq hg.columns.kernel_pos hg.columns.stride_pos hg.columns.forwards g.padding w

theorem fits_of_accepts (hg : g.Proper) (h : Nat) (w : Nat) (haccepts : g.Accepts h w) : g.fits h w = true := by
  obtain ⟨hrows, hcolumns⟩ := haccepts
  have hheight := outHeight_eq hg h
  have hwidth := outWidth_eq hg w
  have hstride := hg.rows.stride_pos
  have hstride' := hg.columns.stride_pos
  simp only [fits, Bool.and_eq_true, decide_eq_true_eq]
  omega

section Sizes

open LayerConfig (Spans)

variable {sizes strides : Int × Int}

/-- The windows of sizes that a layer may be given advance. -/
theorem proper_ofSizes (hsizes : Spans sizes) (hstrides : Spans strides) (padding : Padding) :
    (ofSizes sizes strides padding).Proper := by
  obtain ⟨hheight, hwidth⟩ := hsizes
  obtain ⟨hrow, hcolumn⟩ := hstrides
  refine ⟨⟨?_, ?_, ?_⟩, ⟨?_, ?_, ?_⟩⟩
  all_goals
    simp only [ofSizes, decide_eq_false_iff_not]
    omega

/-- Where the shape rule finds windows, a layer accepts an image. -/
theorem accepts_of_windows (hsizes : Spans sizes) (hstrides : Spans strides) {what : String} {padding : Padding}
    {out : Int × Int} (hwindows : Shape.windows what sizes strides (h, w) padding = .ok out) :
    (ofSizes sizes strides padding).Accepts h w := by
  obtain ⟨hheight, hwidth⟩ := hsizes
  obtain ⟨hrow, hcolumn⟩ := hstrides
  have hkernel (n : Int) (hn : 1 ≤ n) : ((n.toNat : Nat) : Int) = n ∧ ((n.natAbs : Nat) : Int) = n := by omega
  simp only [Shape.windows] at hwindows
  split at hwindows
  · contradiction
  · simp only [Accepts, ofSizes, hkernel _ hheight, hkernel _ hwidth, hkernel _ hrow, hkernel _ hcolumn]
    omega

end Sizes

/-- Tap `(i, j)` of window `(y, x)` lies on cell `(r, q)`. -/
def OnCell (g : WindowGrid) (y x i j : Nat) (r : Fin h) (q : Fin w) : Prop :=
  g.rows.OnCell g.padding y i r ∧ g.columns.OnCell g.padding x j q

instance (y x i j : Nat) (r : Fin h) (q : Fin w) : Decidable (g.OnCell y x i j r q) :=
  inferInstanceAs (Decidable (_ ∧ _))

/-- A cell lies in a window: one of the taps of the window lies on it. -/
def Covers (g : WindowGrid) (y x : Nat) (r : Fin h) (q : Fin w) : Prop :=
  ∃ i < g.rows.kernel, ∃ j < g.columns.kernel, g.OnCell y x i j r q

/-- Every window has a cell. -/
theorem exists_covers (hg : g.Proper) {y x : Nat} (hy : y < g.outHeight h) (hx : x < g.outWidth w) :
    ∃ (r : Fin h) (q : Fin w), g.Covers y x r q := by
  obtain ⟨i, hi, r, hr⟩ := WindowAxis.exists_onCell hg.rows hy
  obtain ⟨j, hj, q, hq⟩ := WindowAxis.exists_onCell hg.columns hx
  exact ⟨r, q, i, hi, j, hj, hr, hq⟩

/-- A tap of a window lies on one cell. -/
theorem OnCell.unique {y x i j : Nat} {r r' : Fin h} {q q' : Fin w} (hcell : g.OnCell y x i j r q)
    (hcell' : g.OnCell y x i j r' q') : r = r' ∧ q = q' :=
  ⟨le_antisymm ((hcell.1.le_iff hcell'.1).mpr le_rfl) ((hcell'.1.le_iff hcell.1).mpr le_rfl),
    le_antisymm ((hcell.2.le_iff hcell'.2).mpr le_rfl) ((hcell'.2.le_iff hcell.2).mpr le_rfl)⟩

theorem cell?_eq_some (hg : g.Proper) {y x i j : Nat} {r : Fin h} {q : Fin w} :
    g.cell? y x i j = some (r, q) ↔ g.OnCell y x i j r q := by
  rw [OnCell, ← WindowAxis.cell?_eq_some hg.rows, ← WindowAxis.cell?_eq_some hg.columns, cell?]
  cases (g.rows.cell? g.padding y i : Option (Fin h)) <;> cases (g.columns.cell? g.padding x j : Option (Fin w)) <;>
    simp

theorem window?_eq_some (hg : g.Proper) {i j : Nat} {r : Fin h} {q : Fin w} {y : Fin (g.outHeight h)}
    {x : Fin (g.outWidth w)} : g.window? r q i j = some (y, x) ↔ g.OnCell y x i j r q := by
  have hrow : g.rows.window? g.padding r i = some y ↔ g.rows.OnCell g.padding y i r :=
    WindowAxis.window?_eq_some hg.rows
  have hcolumn : g.columns.window? g.padding q j = some x ↔ g.columns.OnCell g.padding x j q :=
    WindowAxis.window?_eq_some hg.columns
  rw [OnCell, ← hrow, ← hcolumn, window?]
  constructor
  · intro hwindow
    split at hwindow
    · next hy hx =>
        obtain ⟨rfl, rfl⟩ := Prod.mk.inj (Option.some.inj hwindow)
        exact ⟨hy, hx⟩
    · contradiction
  · rintro ⟨hy, hx⟩
    rw [hy, hx]

end WindowGrid

/-! ## Sums -/

section Sums

variable {M : Type} [AddCommMonoid M]

/-- What may be there, as a sum over all that could be. -/
theorem elim_eq_sum {ι : Type} [Fintype ι] [DecidableEq ι] (o : Option ι) (f : ι → M) :
    o.elim 0 f = ∑ i, if o = some i then f i else 0 := by
  cases o <;> simp

/-- Two partial functions that are each other's inverse pair the same things, from either side. -/
theorem sum_elim_comm {ι κ : Type} [Fintype ι] [DecidableEq ι] [Fintype κ] [DecidableEq κ] {c : ι → Option κ}
    {d : κ → Option ι} (hinverse : ∀ i k, c i = some k ↔ d k = some i) (f : ι → κ → M) :
    ∑ i, (c i).elim 0 (f i) = ∑ k, (d k).elim 0 fun i => f i k := by
  simp only [elim_eq_sum, hinverse]
  exact Finset.sum_comm

section Orders

variable {Y X I J : Type} [Fintype Y] [Fintype X] [Fintype I] [Fintype J]

/-- The first of three sums taken last. -/
theorem sum_rotate (t : X → I → J → M) : ∑ x, ∑ i, ∑ j, t x i j = ∑ i, ∑ j, ∑ x, t x i j :=
  Finset.sum_comm.trans (Finset.sum_congr rfl fun _ _ => Finset.sum_comm)

/-- Two double sums in either order. -/
theorem sum_comm₂ (t : Y → X → I → J → M) : ∑ y, ∑ x, ∑ i, ∑ j, t y x i j = ∑ i, ∑ j, ∑ y, ∑ x, t y x i j := by
  simp only [sum_rotate (t _)]
  exact sum_rotate _

end Orders

end Sums

namespace WindowGrid

variable {g : WindowGrid} {h w : Nat} {M : Type} [AddCommMonoid M]

/-- A sum over windows of what one of their taps lies on is one over the cells of the window that has the tap there. -/
theorem sum_cell? (hg : g.Proper) (i j : Nat) (f : Fin (g.outHeight h) → Fin (g.outWidth w) → Fin h → Fin w → M) :
    ∑ y : Fin (g.outHeight h), ∑ x : Fin (g.outWidth w),
        ((g.cell? y x i j : Option (Fin h × Fin w)).elim 0 fun p => f y x p.1 p.2) =
      ∑ r : Fin h, ∑ q : Fin w, ((g.window? r q i j).elim 0 fun p => f p.1 p.2 r q) := by
  have hinverse (p : Fin (g.outHeight h) × Fin (g.outWidth w)) (cell : Fin h × Fin w) :
      g.cell? p.1 p.2 i j = some cell ↔ g.window? cell.1 cell.2 i j = some p :=
    (cell?_eq_some hg).trans (window?_eq_some hg).symm
  simp only [← Fintype.sum_prod_type']
  exact sum_elim_comm hinverse fun p cell => f p.1 p.2 cell.1 cell.2

end WindowGrid

end LayerStack
