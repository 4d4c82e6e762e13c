import LayerStack.Dataset

/-!
# LayerStack.Loader

Labelled samples in batches.

An epoch goes through the samples once, in their own order or in a random one, and cuts them into batches of one size;
the last batch may be shorter, and can be left out.
-/

namespace LayerStack

/-! ## Cutting a list -/

/-- Cuts a list into pieces of `k` items; the last one may be shorter. -/
def chunks {β : Type} (k : Nat) : List β → List (List β)
  | [] => []
  | x :: xs => (x :: xs.take (k - 1)) :: chunks k (xs.drop (k - 1))
termination_by l => l.length

theorem flatten_chunks {β : Type} (k : Nat) (l : List β) : (chunks k l).flatten = l := by
  fun_induction chunks k l with
  | case1 => rfl
  | case2 x xs ih => simp [ih, List.take_append_drop]

/-! ## Loaders -/

/-- Labelled samples and how they are cut into batches. -/
structure Loader (α : Type) where
  samples : LabelledSamples α
  batchSize : Nat
  batchSize_pos : 0 < batchSize
  shuffle : Bool := true
  dropLast : Bool := false

namespace Loader

variable {α : Type}

/-- A loader with a batch size of any form: there have to be as many labels as inputs, and a whole number of samples in
a batch. -/
def ofSettings (samples : LabelledSamples α) (batchSize : Value) (shuffle dropLast : Bool) :
    Except RunError (Loader α) :=
  if samples.isPaired then
    match batchSize.quantity? with
    | none => .error .illTyped
    | some size =>
      if Number.lt size (.int 1) then .error (.batchSize batchSize)
      else
        match size with
        | .int n =>
          if h : 0 < n.toNat then .ok { samples, batchSize := n.toNat, batchSize_pos := h, shuffle, dropLast }
          else .error .illTyped
        | _ => .error .illTyped
  else .error (.lengths samples.inputs.length samples.labels.length)

/-- The number of samples. -/
def length (l : Loader α) : Nat := l.samples.inputs.length

/-- The number of batches of an epoch. -/
def size (l : Loader α) : Nat :=
  if l.dropLast then l.length / l.batchSize else (l.length + l.batchSize - 1) / l.batchSize

/-- The indices of the samples in the order of an epoch. -/
def order (l : Loader α) : Draw (List Nat) :=
  if l.shuffle then Array.toList <$> Draw.permutation l.length else pure (List.range l.length)

/-- The indices of every batch. -/
def cut (l : Loader α) (order : List Nat) : List (List Nat) :=
  let all := chunks l.batchSize order
  if l.dropLast then all.filter (·.length == l.batchSize) else all

/-- The batches of an epoch. -/
def epoch (l : Loader α) : Draw (List (LabelledSamples α)) := do
  return (l.cut (← l.order)).map l.samples.pick

/-- The batches of some epochs. -/
def epochs (l : Loader α) (n : Nat) : Draw (List (List (LabelledSamples α))) := (List.range n).mapM fun _ => l.epoch

end Loader

end LayerStack
