import LayerStack.Tensor

/-!
# LayerStack.Tensor.Stretch

Tensors repeated to fit larger ones.

Axes are matched from the last one backwards.  Along an axis of length one, and along a leading axis it lacks, a tensor
is repeated as often as the other one is long.  `Dims.common?` says to which axes two tensors stretch, `Tensor.stretch?`
stretches one of them; a tensor on the axes it has already stays as it is (`stretch?_self`).
-/

namespace LayerStack

namespace Dims

/-- The axes that tensors on two given ones stretch to. -/
def common? (s t : Dims) : Option Dims := (fromLast s.reverse t.reverse).map List.reverse
where
  fromLast : Dims → Dims → Option Dims
    | [], t => some t
    | s, [] => some s
    | m :: s, n :: t =>
      if m = n ∨ m = 1 then (fromLast s t).map (n :: ·)
      else if n = 1 then (fromLast s t).map (m :: ·)
      else none

theorem fromLast_self (s : Dims) : common?.fromLast s s = some s := by
  induction s with
  | nil => rfl
  | cons n s ih => simp [common?.fromLast, ih]

theorem common?_self (s : Dims) : common? s s = some s := by
  simp [common?, fromLast_self]

end Dims

namespace Tensor

variable {α : Type} {s : Dims}

/-- The tensor repeated to fit the given axes. -/
def stretch? {s : Dims} (x : Tensor α s) (t : Dims) : Option (Tensor α t) :=
  if h : s = t then some (h ▸ x)
  else
    match t with
    | [] => none
    | n :: t =>
      if s.length ≤ t.length then (x.stretch? t).map (Vector.replicate n)
      else
        match s, x with
        | [], _ => none
        | m :: s, x =>
          if h : m = n then Vector.mapM (fun r : Tensor α s => r.stretch? t) (h ▸ x : Tensor α (n :: s))
          else if h : m = 1 then ((x.row ⟨0, by omega⟩).stretch? t).map (Vector.replicate n)
          else none

theorem stretch?_self (x : Tensor α s) : x.stretch? s = some x := by
  unfold stretch?
  rw [dif_pos rfl]

end Tensor

end LayerStack
