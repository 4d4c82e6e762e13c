import LayerStack.Operator.Parameters
import LayerStack.Shape.Window

/-!
# LayerStack.Operator.Window

Windows over the cells of an axis.

Windows are counted over the padded axis, from its first place on or, where they run backwards, from its last place
down.  Tap `i` of window `y` lies on cell `start y + i - before`; taps off the axis lie on padding.  `cell?` reads that
relation from the window, `window?` from the cell: for each tap at most one window has it on a given cell.

Windows that run backwards have a way back of their own.  Only a single window has one (`returns`), and its taps return
to the places from the first of the axis on, wherever the window began; of those nearer to the first place than the
stride, none returns unless the stride reaches past the whole axis.
-/

namespace LayerStack

/-- The windows along one axis of a two-dimensional layer. -/
structure WindowAxis where
  kernel : Nat
  stride : Nat
  /-- Do the windows run from the end of the axis to its start? -/
  backwards : Bool := false
deriving Repr, DecidableEq

/-- The windows of a two-dimensional layer. -/
structure WindowGrid where
  rows : WindowAxis
  columns : WindowAxis
  padding : Padding
deriving Repr, DecidableEq

namespace WindowAxis

/-- The stride, below zero for windows that run backwards. -/
def step (a : WindowAxis) : Int := if a.backwards then -a.stride else a.stride

/-- The cells of padding before and after the axis. -/
def margins (a : WindowAxis) (padding : Padding) (size : Nat) : Nat × Nat :=
  match padding with
  | .valid => (0, 0)
  | .same => ((samePadding size a.kernel a.step).1.toNat, (samePadding size a.kernel a.step).2.toNat)

/-- The padding before the first cell. -/
def before (a : WindowAxis) (padding : Padding) (size : Nat) : Nat := (a.margins padding size).1

/-- The length of the padded axis. -/
def padded (a : WindowAxis) (padding : Padding) (size : Nat) : Nat :=
  size + (a.margins padding size).1 + (a.margins padding size).2

/-- The number of windows along an axis of `size` cells. -/
def count (a : WindowAxis) (padding : Padding) (size : Nat) : Nat :=
  (windowCount (a.padded padding size) a.kernel a.stride .valid).toNat

/-- The place of the padded axis that a window starts at. -/
def start (a : WindowAxis) (padding : Padding) (size y : Nat) : Nat :=
  if a.backwards then a.padded padding size - a.kernel - y * a.stride else y * a.stride

/-- The cell a tap of a window lies on. -/
def cell? (a : WindowAxis) (padding : Padding) {size : Nat} (y i : Nat) : Option (Fin size) :=
  let place := a.start padding size y + i
  let before := a.before padding size
  if h : before ≤ place ∧ place - before < size then some ⟨place - before, h.2⟩ else none

/-- Does a gradient of a given length along the axis have a way back? -/
def returns (a : WindowAxis) (length : Nat) : Bool := !a.backwards || length == 1

/-- The window whose tap returns to a cell: the one that has its tap there, for windows that do not run backwards. -/
def window? (a : WindowAxis) (padding : Padding) {size : Nat} (r : Fin size) (i : Nat) :
    Option (Fin (a.count padding size)) :=
  let place := r + a.before padding size
  if a.backwards then
    if h : 0 < a.count padding size ∧ place = i ∧ (a.stride ≤ i ∨ a.padded padding size < a.stride) then
      some ⟨0, h.1⟩
    else none
  else if h : i ≤ place ∧ (place - i) % a.stride = 0 ∧ (place - i) / a.stride < a.count padding size then
    some ⟨(place - i) / a.stride, h.2.2⟩
  else none

end WindowAxis

namespace WindowGrid

variable {α : Type} {h w c : Nat}

/-- The number of rows and columns of windows over an image. -/
def outHeight (g : WindowGrid) (h : Nat) : Nat := g.rows.count g.padding h

def outWidth (g : WindowGrid) (w : Nat) : Nat := g.columns.count g.padding w

/-- Do the windows advance, and is there one over an image at all? -/
def fits (g : WindowGrid) (h w : Nat) : Bool :=
  0 < g.rows.stride && 0 < g.columns.stride && 0 < g.outHeight h && 0 < g.outWidth w

/-- The cell of an image that a tap of a window lies on. -/
def cell? (g : WindowGrid) (y x i j : Nat) : Option (Fin h × Fin w) :=
  match g.rows.cell? g.padding y i, g.columns.cell? g.padding x j with
  | some r, some q => some (r, q)
  | _, _ => none

/-- Does a gradient of the given rows and columns have a way back? -/
def returns (g : WindowGrid) (rows columns : Nat) : Bool := g.rows.returns rows && g.columns.returns columns

/-- The window whose tap returns to a cell of an image. -/
def window? (g : WindowGrid) (r : Fin h) (q : Fin w) (i j : Nat) : Option (Fin (g.outHeight h) × Fin (g.outWidth w)) :=
  match g.rows.window? g.padding r i, g.columns.window? g.padding q j with
  | some y, some x => some (y, x)
  | _, _ => none

/-- A pixel of an image: its channels. -/
def pixel (image : Tensor α [h, w, c]) (r : Fin h) (q : Fin w) : Tensor α [c] := (image.row r).row q

/-- The pixel that a tap of a window reads; padding reads as zeros. -/
def tapped [Zero α] (g : WindowGrid) (image : Tensor α [h, w, c]) (y x i j : Nat) : Tensor α [c] :=
  match (g.cell? y x i j : Option (Fin h × Fin w)) with
  | some (r, q) => pixel image r q
  | none => Tensor.zeros [c]

/-- The image with the given pixels. -/
def ofPixels (f : Fin h → Fin w → Tensor α [c]) : Tensor α [h, w, c] :=
  Tensor.ofFn fun r => Tensor.ofFn fun q => f r q

/-- Combines two images pixel by pixel. -/
def zipPixels {β γ : Type} {k m : Nat} (f : Tensor α [c] → Tensor β [k] → Tensor γ [m]) (a : Tensor α [h, w, c])
    (b : Tensor β [h, w, k]) : Tensor γ [h, w, m] :=
  ofPixels fun r q => f (pixel a r q) (pixel b r q)

/-- The image that begins with a shorter one and is zero beyond it. -/
def longer [Zero α] {h' w' : Nat} (image : Tensor α [h', w', c]) : Tensor α [h, w, c] :=
  ofPixels fun r q =>
    if fits : r.val < h' ∧ q.val < w' then pixel image ⟨r, fits.1⟩ ⟨q, fits.2⟩ else Tensor.zeros [c]

end WindowGrid

end LayerStack
