import LayerStack.Operator.Parameters

/-!
# LayerStack.Operator.Collapse

Layers that take axes away: flattening, which makes one row of every sample, and averaging over the positions of a
sequence.
-/

namespace LayerStack

variable {α : Type}

/-! ## Flattening -/

namespace Flatten

/-- Every sample of a batch as one row. -/
def forwardBatch [Zero α] (x : AnyTensor α) : Except RunError (AnyTensor α) :=
  match x.dims with
  | [] => .error .mismatch
  | _ :: _ => .ok ((x.split 1).map fun sample => sample.reshape [Dims.volume (x.dims.drop 1)]).join

/-- The gradient on the axes the batch had. -/
def backwardBatch [Zero α] (dims : Dims) (cotangent : AnyTensor α) : Except RunError (AnyTensor α) :=
  if cotangent.size = Dims.volume dims then .ok ⟨dims, cotangent.value.reshape dims⟩ else .error .mismatch

end Flatten

/-! ## Averaging -/

namespace Average

variable {n : Nat} {s : Dims}

/-- The mean of the tensors along the first axis, of which the sum is one of real numbers. -/
def forward [Zero α] [Add α] [Div α] [NatCast α] (x : Tensor α (n :: s)) : Tensor α s :=
  (Tensor.sumRows (Tensor.map Scalar.real x)).map (· / (n : α))

/-- The mean over the positions of every sequence of a batch. -/
def forwardBatch [Zero α] [Add α] [Div α] [NatCast α] (x : AnyTensor α) : Except RunError (AnyTensor α) :=
  on (x.dims.drop 1) (x.split 1)
where
  on : (s : Dims) → AnyTensor (Tensor α s) → Except RunError (AnyTensor α)
    | [], _ => .error .mismatch
    | _ :: _, sequences => .ok (sequences.map forward).join

/-- The gradient of every sequence of a batch: that of a mean goes to all of its terms alike. -/
def backwardBatch [Div α] [NatCast α] (dims : Dims) (cotangent : AnyTensor α) : Except RunError (AnyTensor α) :=
  match dims, cotangent with
  | _ :: positions :: _, ⟨n :: s, g⟩ =>
    let shares : AnyTensor α := ⟨n :: 1 :: s, g.mapRows fun row => Tensor.ofFn fun _ => row.map (· / (positions : α))⟩
    (RunError.fit (shares.spread? dims)).map fun x => ⟨dims, x⟩
  | _, _ => .error .mismatch

end Average

end LayerStack
