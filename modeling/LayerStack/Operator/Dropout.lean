import LayerStack.Operator.Parameters

/-!
# LayerStack.Operator.Dropout

Dropout masks.

In training every number is dropped with probability `rate`, and those that stay are scaled up by what was lost on
average, so that nothing has to be done outside training.  A rate of one drops everything without drawing.
-/

namespace LayerStack.Dropout

variable {α : Type} [Scalar α]

/-- The factors of a mask. -/
def mask (rate : α) (s : Dims) : Draw (Tensor α s) :=
  if 1 ≤ rate then pure (Tensor.fill Scalar.realZero s)
  else do
    let keep := 1 - rate
    let u ← Draw.tensor Draw.unit s
    return u.map fun (a : α) => Scalar.indicator (a < keep) / keep

/-- The factors of a mask for a rate of any size. -/
def maskOf (rate : Number) (s : Dims) : Draw (Except RunError (Tensor α s)) :=
  if rate.hasDouble || Number.le (.int 1) rate then .ok <$> mask (Scalar.ofNumber rate) s else pure (.error .tooLarge)

/-- Does a pass draw masks at all? -/
def isActive (training : Bool) (rate : α) : Bool := training && (0 < rate : Bool)

/-- The masks of a family of tensors, one draw after the other; none where a pass draws none. -/
def masks? (training : Bool) (rate : α) (lead s : Dims) : Draw (Tensor (Option (Tensor α s)) lead) :=
  if isActive training rate then do
    return (Tensor.blocks lead (← mask rate (lead ++ s))).map some
  else pure (Tensor.fill none lead)

/-- A tensor under a mask. -/
def masked {β : Type} [Mul β] {s : Dims} (x : Tensor β s) (mask : Option (Tensor β s)) : Tensor β s :=
  match mask with
  | some m => Tensor.zipWith (· * ·) x m
  | none => x

/-- A rate that is a probability. -/
def checkRate (rate : Number) : Except RunError Unit :=
  if Number.le (.int 0) rate && Number.le rate (.int 1) then .ok () else .error (.dropoutRate (.ofNumber rate))

end LayerStack.Dropout
