import LayerStack.Operator.Window

/-!
# LayerStack.Operator.MaxPool2D

Maximum pooling of images whose channels come last.

Each window takes the first largest cell under its taps, in row-major order, for every channel by itself.  Padding reads
as the least number there is, so it is taken only before cells that are no larger, and never where there is no least
number; words cannot be padded at all.  The way back gives each cell the gradients of the windows whose taken tap
returns to it, in real numbers.
-/

namespace LayerStack.WindowGrid

variable {α : Type} {h w c : Nat}

/-- A place under a window: its row and its column there. -/
abbrev Tap := Nat × Nat

/-- The taps of a window in row-major order. -/
def taps (g : WindowGrid) : List Tap :=
  (List.range g.rows.kernel).flatMap fun i => (List.range g.columns.kernel).map fun j => (i, j)

/-- What a tap of a window reads in a channel; padding reads as the least number, if there is one. -/
def reading? (g : WindowGrid) (least : Option α) (image : Tensor α [h, w, c]) (y x : Nat) (k : Fin c) (tap : Tap) :
    Option α :=
  match (g.cell? y x tap.1 tap.2 : Option (Fin h × Fin w)) with
  | some (r, q) => some ((pixel image r q).entry k)
  | none => least

/-- The first of some taps to read the largest number, and that number. -/
def leader? [LE α] [DecidableLE α] (read : Tap → Option α) (taps : List Tap) : Option (Tap × α) :=
  taps.foldl (fun best tap =>
    match read tap, best with
    | none, best => best
    | some a, none => some (tap, a)
    | some a, some (first, b) => if Scalar.leads a b then some (tap, a) else some (first, b)) none

/-- The tap that each window takes in each channel, and what it reads there. -/
def taken [LE α] [DecidableLE α] (g : WindowGrid) (least : Option α) (image : Tensor α [h, w, c]) :
    Tensor (Option (Tap × α)) [g.outHeight h, g.outWidth w, c] :=
  ofPixels fun y x => Tensor.ofEntries fun k => leader? (g.reading? least image y x k) g.taps

/-- The taps alone. -/
def tapsOf {s : Dims} (taken : Tensor (Option (Tap × α)) s) : Tensor (Option Tap) s :=
  Tensor.map (fun leader => leader.map (·.1)) taken

/-- The pooled image. -/
def pooled [Zero α] {s : Dims} (taken : Tensor (Option (Tap × α)) s) : Tensor α s :=
  Tensor.map (fun leader => (leader.map (·.2)).getD 0) taken

/-- The gradient of the image, from the gradient of the pooled image and the taps that count as taken. -/
def routed [Zero α] [Add α] (g : WindowGrid) (took : Fin (g.outHeight h) → Fin (g.outWidth w) → Fin c → Tap → Bool)
    (cotangent : Tensor α [g.outHeight h, g.outWidth w, c]) : Tensor α [h, w, c] :=
  ofPixels fun r q => Tensor.ofEntries fun k =>
    Scalar.sum g.rows.kernel fun i => Scalar.sum g.columns.kernel fun j =>
      match g.window? r q i j with
      | some (y, x) => if took y x k (i, j) then (pixel cotangent y x).entry k else 0
      | none => 0

/-- The gradient of the image, from the gradient of the pooled image. -/
def pooledBackward [Zero α] [Add α] (g : WindowGrid) (taken : Tensor (Option Tap) [g.outHeight h, g.outWidth w, c])
    (cotangent : Tensor α [g.outHeight h, g.outWidth w, c]) : Tensor α [h, w, c] :=
  g.routed (fun y x k tap => (pixel taken y x).entry k == some tap) cotangent

/-! ## Batches -/

/-- What is left of a batch of pooled images. -/
structure PoolTrace (g : WindowGrid) where
  height : Nat
  width : Nat
  channels : Nat
  images : AnyTensor (Tensor (Option Tap) [g.outHeight height, g.outWidth width, channels])

/-- Are there words to be padded? -/
def padsWords [Scalar α] (g : WindowGrid) (x : AnyTensor α) : Bool :=
  g.padding = .same && x.isWords

/-- A batch of images pooled, and what it leaves. -/
def poolBatch [Scalar α] (g : WindowGrid) (x : AnyTensor α) : Except RunError (AnyTensor α × PoolTrace g) :=
  match x.dims with
  | [_, h, w, c] => do
    let images ← RunError.fit (x.blocks? [h, w, c])
    if g.padsWords x then throw .tooLarge
    if g.fits h w ∧ g.taps ≠ [] then
      let taken := images.map fun image => g.taken Scalar.least? image
      return ((taken.map pooled).join, ⟨h, w, c, taken.map tapsOf⟩)
    else .error .mismatch
  | _ => .error .mismatch

/-- The places along an axis that share one place of a gradient, which is shorter if it is of length one. -/
def sharing (length full place : Nat) : List Nat := if length = full then [place] else List.range full

/-- The gradient of the images from a gradient of length one along some axes.  What windows take counts for all windows
that share a place of the gradient; the gradient itself goes to the first of them along rows and columns. -/
def backwardShort [Scalar α] {g : WindowGrid} (t : PoolTrace g) (cotangent : AnyTensor α) : Option (AnyTensor α) :=
  match t.images.dims, cotangent.dims with
  | [n], [n', h', w', c'] => do
    let (h, w, c) := (g.outHeight t.height, g.outWidth t.width, t.channels)
    guard ((h' = h ∨ h' = 1) ∧ (w' = w ∨ w' = 1) ∧ g.returns h' w')
    let short ← cotangent.spreadFamily? [n] [h', w', c]
    let all := t.images.join.toArray
    let took (b y x k : Nat) (tap : Tap) : Bool :=
      (sharing n' n b).any fun b => (sharing h' h y).any fun y => (sharing w' w x).any fun x =>
        (sharing c' c k).any fun k => all.getD (((b * h + y) * w + x) * c + k) none == some tap
    let numbered : AnyTensor Nat := ⟨[n], Tensor.ofEntries fun b => b.val⟩
    let images ← numbered.zipWith?
      (fun b u => g.routed (h := t.height) (w := t.width) (fun y x k tap => took b y x k tap) (longer u)) short
    return images.join
  | _, _ => none

/-- The gradient of the images. -/
def poolBackwardBatch [Scalar α] {g : WindowGrid} (t : PoolTrace g) (cotangent : AnyTensor α) :
    Except RunError (AnyTensor α) := RunError.fit do
  let outer : Dims := [g.outHeight t.height, g.outWidth t.width, t.channels]
  let cotangent := cotangent.map Scalar.real
  if cotangent.dims = t.images.dims ++ outer then
    guard (g.returns (g.outHeight t.height) (g.outWidth t.width))
    let images ← t.images.zipWith? (fun taken u => g.pooledBackward taken u) (← cotangent.blocks? outer)
    return images.join
  else backwardShort t cotangent

end LayerStack.WindowGrid
