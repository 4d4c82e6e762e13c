import LayerStack.Proofs.Operator.Pass

/-!
# LayerStack.Proofs.Operator.Inference

Passes that draw no masks.

Outside of training, or at a rate that is not above zero, an operator draws nothing and passes on what it would outside
of training (`forward_of_quiet`).  What it passes on then hangs on its kind and its weights alone: `bare` is the operator
without its dropout rate and without what its last passes left, and it passes on the same (`result_bare`).
-/

namespace LayerStack

variable {α : Type} [Scalar α] {training : Bool}

/-! ## Masks -/

theorem Dropout.masks?_of_quiet {rate : α} (h : isActive training rate = false) (lead s : Dims) :
    masks? training rate lead s = pure (.fill none lead) := by
  rw [masks?, h]
  rfl

/-- Outside of training no rate is active. -/
theorem Dropout.isActive_inference (rate : α) : isActive false rate = false := rfl

theorem MultiHeadAttention.forwardBatch_of_quiet {d h k v : Nat} {l : MultiHeadAttention α d h k v}
    (hquiet : Dropout.isActive training l.dropout = false) (x : AnyTensor α) (stream stream' : Stream) :
    l.forwardBatch training x stream = ((l.forwardBatch false x stream').1, stream) := by
  unfold forwardBatch
  cases x.sequences? d with
  | none => rfl
  | some sequences =>
      simp only [Dropout.masks?_of_quiet hquiet, Dropout.masks?_of_quiet (Dropout.isActive_inference l.dropout)]
      rfl

/-- Outside of training the rate plays no part. -/
theorem MultiHeadAttention.forwardBatch_rate {d h k v : Nat} (l : MultiHeadAttention α d h k v) (rate : α) (x : AnyTensor α)
    (stream : Stream) : { l with dropout := rate }.forwardBatch false x stream = l.forwardBatch false x stream := by
  unfold forwardBatch
  cases x.sequences? d with
  | none => rfl
  | some sequences => rfl

theorem TransformerBlock.forwardBatch_of_quiet {d h k f : Nat} {b : TransformerBlock α d h k f}
    (hquiet : Dropout.isActive training b.dropout = false) (x : AnyTensor α) (stream stream' : Stream) :
    b.forwardBatch training x stream = ((b.forwardBatch false x stream').1, stream) := by
  unfold forwardBatch
  cases x.sequences? d with
  | none => rfl
  | some sequences =>
      simp only [masks, Dropout.masks?_of_quiet hquiet,
        Dropout.masks?_of_quiet (Dropout.isActive_inference b.dropout)]
      rfl

theorem TransformerBlock.forwardBatch_rate {d h k f : Nat} (b : TransformerBlock α d h k f) (rate : α) (x : AnyTensor α)
    (stream : Stream) : { b with dropout := rate }.forwardBatch false x stream = b.forwardBatch false x stream := by
  unfold forwardBatch
  cases x.sequences? d with
  | none => rfl
  | some sequences => rfl

namespace Operator

/-! ## Rates -/

omit [Scalar α] in
/-- The dropout rate of an operator that draws masks in training. -/
def rate? : Operator α → Option α
  | .dropout rate _ => some rate
  | .attention c => some c.layer.dropout
  | .transformerBlock c => some c.layer.dropout
  | _ => none

/-- A pass of the operator draws no masks. -/
def Quiet (training : Bool) (o : Operator α) : Prop := ∀ rate ∈ o.rate?, Dropout.isActive training rate = false

theorem quiet_inference (o : Operator α) : o.Quiet false := fun rate _ => Dropout.isActive_inference rate

variable {o : Operator α}

/-- A pass without masks is one outside of training: it comes to the same, leaves the same, and draws nothing. -/
theorem forward_of_quiet (h : o.Quiet training) (x : AnyTensor α) (stream stream' : Stream) :
    o.forward training x stream = ((o.forward false x stream').1, stream) := by
  cases o with
  | dense c | conv2d c | flatten dims | average dims | layerNorm c | embedding c | positions c | feedForward c
  | undefined => rfl
  | maxPool2D grid trace =>
      rw [forward, forward]
      cases grid.poolBatch x <;> rfl
  | dropout rate mask =>
      have hrate : Dropout.isActive training rate = false := h rate rfl
      simp only [forward, hrate, Dropout.isActive_inference]
      rfl
  | attention c =>
      simp only [forward, run_bind, MultiHeadAttention.forwardBatch_of_quiet (h _ rfl) x stream stream']
      rfl
  | transformerBlock c =>
      simp only [forward, run_bind, TransformerBlock.forwardBatch_of_quiet (h _ rfl) x stream stream']
      rfl

/-! ### What keeps the rate -/

theorem rate?_forward (training : Bool) (x : AnyTensor α) (o : Operator α) (stream : Stream) :
    (o.forward training x stream).1.2.rate? = o.rate? := by
  cases o with
  | dense c | conv2d c | flatten dims | average dims | layerNorm c | embedding c | positions c | feedForward c
  | undefined => rfl
  | maxPool2D grid trace =>
      rw [forward]
      cases grid.poolBatch x <;> rfl
  | dropout rate mask =>
      rw [forward]
      cases Dropout.isActive training rate <;> rfl
  | attention c | transformerBlock c => simp [forward, rate?, run_bind, run_pure]

theorem rate?_backward (g : AnyTensor α) (o : Operator α) : (o.backward g).2.rate? = o.rate? := by
  cases o with
  | dense c | conv2d c | layerNorm c | feedForward c | undefined => rfl
  | embedding c =>
      rw [backward, backwardEmbedding]
      split
      · rfl
      · split <;> rfl
  | positions c =>
      rw [backward, backwardPositions]
      split <;> rfl
  | attention c | transformerBlock c => simp [backward, rate?]
  | maxPool2D grid trace => cases trace <;> rfl
  | dropout rate mask => cases mask <;> rfl
  | flatten dims | average dims => cases dims <;> rfl

omit [Scalar α] in
theorem rate?_change (f : TensorChange α) (o : Operator α) : (o.change f).rate? = o.rate? := by
  cases o with
  | embedding c =>
      rw [change]
      split <;> rfl
  | positions c =>
      rw [change]
      split <;> rfl
  | dense | conv2d | maxPool2D | dropout | flatten | average | layerNorm | attention | feedForward | transformerBlock
  | undefined => rfl

/-! ## Bare operators -/

/-- The operator without a dropout rate, and without what its last passes left. -/
def bare : Operator α → Operator α
  | .dense c => .dense { layer := c.layer }
  | .conv2d c => .conv2d { layer := c.layer }
  | .maxPool2D grid _ => .maxPool2D grid none
  | .dropout _ _ => .dropout 0 none
  | .flatten _ => .flatten none
  | .average _ => .average none
  | .layerNorm c => .layerNorm { layer := c.layer }
  | .embedding c => .embedding { layer := c.layer }
  | .positions c => .positions { layer := c.layer }
  | .attention c => .attention { layer := { c.layer with dropout := 0 } }
  | .feedForward c => .feedForward { layer := c.layer }
  | .transformerBlock c => .transformerBlock { layer := { c.layer with dropout := 0 } }
  | .undefined => .undefined

theorem parameters_bare (o : Operator α) : o.bare.parameters = o.parameters := by cases o <;> rfl

/-- A pass does not touch what is bare of an operator. -/
theorem bare_forward (training : Bool) (x : AnyTensor α) (o : Operator α) (stream : Stream) :
    (o.forward training x stream).1.2.bare = o.bare := by
  cases o with
  | dense c | conv2d c | layerNorm c | embedding c | positions c | attention c | feedForward c | transformerBlock c =>
      simp [forward, bare, run_bind, run_pure]
  | maxPool2D grid trace =>
      rw [forward]
      cases grid.poolBatch x <;> rfl
  | dropout rate mask =>
      rw [forward]
      cases Dropout.isActive training rate <;> rfl
  | flatten dims | average dims | undefined => rfl

omit [Scalar α] in
/-- What a cell passes on is what its pass came to. -/
theorem fst_pass {L T β : Type} (c : Cell α L T) (result : Except RunError (β × T)) :
    (c.pass result).1 = result.map Prod.fst := by
  cases result <;> rfl

/-- Outside of training an operator passes on what the bare one does. -/
theorem result_bare (x : AnyTensor α) (o : Operator α) (stream : Stream) :
    (o.bare.forward false x stream).1.1 = (o.forward false x stream).1.1 := by
  cases o with
  | dense c | conv2d c | layerNorm c | embedding c | positions c | feedForward c =>
      simp [forward, bare, fst_pass, run_pure]
  | maxPool2D grid trace =>
      rw [bare, forward, forward]
      cases grid.poolBatch x <;> rfl
  | dropout rate mask =>
      simp only [forward, bare, Dropout.isActive_inference]
      rfl
  | attention c => simp [forward, bare, fst_pass, run_bind, run_pure, MultiHeadAttention.forwardBatch_rate]
  | transformerBlock c => simp [forward, bare, fst_pass, run_bind, run_pure, TransformerBlock.forwardBatch_rate]
  | flatten dims | average dims | undefined => rfl

end Operator

end LayerStack
