import LayerStack.Proofs.Binary64.Share
import LayerStack.Proofs.Loader
import LayerStack.Proofs.Tensor.Reshape
import LayerStack.Proofs.Tensor.Samples
import LayerStack.Scalar.Mixed

/-!
# LayerStack.Proofs.Dataset

What a dataset is loaded as.

Every sample stays with its label on its way through four changes: inputs take the shape of samples with their entries kept
in order (`forall₂_reshape?`), labels become rows (`forall₂_labelRows`), both splits are put in an order of their own, and a
ratio keeps the first part.  `Samples.tensors` turns each change into one of a list, so they compose to places that are read
in the raw samples (`forall₂_of_picked`).  The main statement is `loads`.
-/

namespace LayerStack

variable {α : Type}

/-! ## Places -/

/-- What is read at some places of a list is related to what another list has there, if the lists are related. -/
theorem forall₂_of_picked {β γ : Type} {R : β → γ → Prop} {raw : List β} {made out : List γ} {places : List Nat}
    (h : List.Forall₂ R raw made) (hout : out.map some = places.map (made[·]?)) :
    List.Forall₂ (fun i c => ∃ b, raw[i]? = some b ∧ R b c) places out := by
  induction places generalizing out with
  | nil =>
      obtain rfl : out = [] := List.map_eq_nil_iff.mp hout
      exact .nil
  | cons i places ih =>
      cases out with
      | nil => contradiction
      | cons c out =>
          rw [List.map_cons, List.map_cons, List.cons.injEq] at hout
          obtain ⟨hi, hmade⟩ := List.getElem?_eq_some_iff.mp hout.1.symm
          have hraw : i < raw.length := h.length_eq ▸ hi
          have hrelated : R raw[i] made[i] := h.get hraw hi
          exact .cons ⟨raw[i], List.getElem?_eq_getElem hraw, hmade ▸ hrelated⟩ (ih hout.2)

/-- A list is what it has at its places. -/
theorem map_some_eq_range {β : Type} (l : List β) : l.map some = (List.range l.length).map (l[·]?) := by
  refine List.ext_getElem (by simp) fun i hi hi' => ?_
  have hlength : i < l.length := by simpa using hi
  simp [hlength]

/-- The first numbers of a range are a range. -/
theorem take_range (k n : Nat) : (List.range n).take k = List.range ((List.range n).take k).length := by
  rw [List.take_range, List.length_range]

/-! ## Labels -/

/-- Are labels rows already, or does each name one of a number of classes? -/
def Samples.Classed [Scalar α] (labels : Samples α) (classes : Value) (count : Nat) : Prop :=
  labels.sample = [] → classes.quantity? = some (.int count) ∧ ∀ a, ⟨[], a⟩ ∈ labels.tensors →
    ∃ k : Nat, Scalar.truncate? a = some (k : Int) ∧ k < count ∧ Word.isSigned k = true

/-- Is a row that of a label: the label itself if it is one, else one at the class it names and zero elsewhere? -/
def Label.IsRow [Scalar α] (count : Nat) (label row : AnyTensor α) : Prop :=
  match label with
  | ⟨[], a⟩ => ∃ k : Fin count, Scalar.truncate? a = some (k.val : Int) ∧
      row = ⟨[count], Tensor.ofEntries fun j => if j = k then 1 else Scalar.realZero⟩
  | label => row = label

namespace Label

variable [Scalar α] {count : Nat}

theorem classOf_eq {a : α} {k : Nat} (h : Scalar.truncate? a = some (k : Int)) (hword : Word.isSigned k = true) :
    classOf a = k := by
  simp [classOf, h, Word.narrow, hword]

/-- The row of a class that there is. -/
theorem isRow_oneHot {a : α} {k : Nat} (h : Scalar.truncate? a = some (k : Int)) (hk : k < count) :
    IsRow count ⟨[], a⟩ ⟨[count], oneHot count k⟩ := by
  refine ⟨⟨k, hk⟩, h, ?_⟩
  have hentry (j : Fin count) : (Scalar.indicator ((k : Int) == (j.val : Int)) : α) =
      if j = ⟨k, hk⟩ then 1 else Scalar.realZero := by
    by_cases hj : j = ⟨k, hk⟩
    · simp [Scalar.indicator, hj]
    · have hne : ¬ (k : Int) = (j.val : Int) := fun heq => hj (Fin.ext (by exact_mod_cast heq.symm))
      simp [Scalar.indicator, hj, hne]
  rw [oneHot, funext hentry]

/-- Labels that each name a class have rows. -/
theorem rows_eq {n : Nat} {y : Tensor α [n]} {classes : Value} (hclasses : classes.quantity? = some (.int count))
    (h : ∀ a ∈ (Vector.toArray y).toList, ∃ k : Nat, Scalar.truncate? a = some (k : Int) ∧ k < count ∧ Word.isSigned k = true) :
    rows ⟨[n], y⟩ classes = .ok ⟨[count], (Vector.toArray y).map fun a => oneHot count (classOf a)⟩ := by
  have hplaces : AnyTensor.toArray ⟨[n], y⟩ = Vector.toArray y := Tensor.toArray_row y
  have hnone : ((Vector.toArray y).map classOf).any (fun k => k < 0 || Number.le (.int count) (.int k)) = false := by
    rw [Array.any_eq_false']
    intro k hk
    obtain ⟨a, ha, rfl⟩ := Array.mem_map.mp hk
    obtain ⟨k, htruncate, hk, hword⟩ := h a (Array.mem_toList_iff.mpr ha)
    have hbelow : ¬ Number.le (.int count) (.int k) = true := by
      rw [Number.le_int]
      omega
    rw [classOf_eq htruncate hword]
    simp [hbelow]
  have hcount : ¬ (count : Int) < 0 := by omega
  rw [rows, hplaces, hclasses]
  simp only [hnone, Bool.false_eq_true, if_false, if_neg hcount, Int.toNat_natCast, Array.map_map]
  rfl

/-- A label that is below all classes, as one that is no word is, leaves no rows. -/
theorem rows_of_neg {n : Nat} {y : Tensor α [n]} {classes : Value} (hclasses : classes.quantity? = some (.int count))
    {a : α} (ha : a ∈ (Vector.toArray y).toList) (hneg : classOf a < 0) :
    rows ⟨[n], y⟩ classes = .error (.labels classes) := by
  have hplaces : AnyTensor.toArray ⟨[n], y⟩ = Vector.toArray y := Tensor.toArray_row y
  have hsome : ((Vector.toArray y).map classOf).any (fun k => k < 0 || Number.le (.int count) (.int k)) = true := by
    rw [Array.any_eq_true']
    exact ⟨classOf a, Array.mem_map.mpr ⟨a, Array.mem_toList_iff.mp ha, rfl⟩, by simp [hneg]⟩
  rw [rows, hplaces, hclasses]
  simp only [hsome, if_true]

end Label

/-! ## Preparing a split -/

/-- Can samples take a shape?  Those that there are none of take any. -/
def Samples.Fits (x : Samples α) (shape : Dims) : Prop := Dims.volume shape = Dims.volume x.sample ∨ x.length = 0

namespace Dataset

variable [Scalar α] {m : DatasetMetadata} {shape : Dims} {count : Nat}

/-- Labels become rows, each its own. -/
theorem forall₂_labelRows {labels : AnyTensor α} {y : Samples α} (hy : Samples.ofTensor labels = .ok y)
    (hclassed : y.Classed m.classes count) :
    ∃ rows, labelRows m labels = .ok rows ∧ List.Forall₂ (Label.IsRow count) y.tensors rows.tensors := by
  obtain ⟨dims, value⟩ := labels
  match dims, value, hy with
  | [n], value, hy =>
      obtain rfl := Except.ok.inj hy
      obtain ⟨hclasses, hnamed⟩ := hclassed rfl
      have hnames : ∀ a ∈ (Vector.toArray value).toList,
          ∃ k : Nat, Scalar.truncate? a = some (k : Int) ∧ k < count ∧ Word.isSigned k = true :=
        fun a ha => hnamed a (List.mem_map_of_mem ha)
      refine ⟨_, Label.rows_eq hclasses hnames, ?_⟩
      simp only [Samples.tensors, Array.toList_map, List.map_map]
      rw [List.forall₂_map_left_iff, List.forall₂_map_right_iff, List.forall₂_same]
      intro a ha
      obtain ⟨k, htruncate, hk, hword⟩ := hnames a ha
      show Label.IsRow count ⟨[], a⟩ ⟨[count], Label.oneHot count (Label.classOf a)⟩
      rw [Label.classOf_eq htruncate hword]
      exact Label.isRow_oneHot htruncate hk
  | n :: k :: u, value, hy =>
      have hrank : ¬ AnyTensor.rank ⟨n :: k :: u, value⟩ = 1 := by simp [AnyTensor.rank]
      refine ⟨y, by rw [labelRows, if_neg hrank, hy], ?_⟩
      obtain rfl := Except.ok.inj hy
      rw [List.forall₂_same]
      intro label hlabel
      obtain ⟨row, _, rfl⟩ := List.mem_map.mp hlabel
      rfl

theorem axesFor?_nonneg (entries : Nat) (shape : Dims) : axesFor? entries (shape.map Int.ofNat) = some shape := by
  have hnone : (shape.map Int.ofNat).filter (· < 0) = [] := by
    rw [List.filter_eq_nil_iff]
    intro n hn
    obtain ⟨k, _, rfl⟩ := List.mem_map.mp hn
    simp
  simp [axesFor?, hnone, Function.comp_def]

theorem reshape_eq (hshape : m.sampleShape.mapM Value.whole? = some (shape.map Int.ofNat)) (x : Samples α) :
    reshape m x = RunError.fit (x.reshape? shape) := by
  simp only [reshape, hshape, Option.bind_eq_bind, Option.bind_some, axesFor?_nonneg]

/-- Inputs that fit take the shape of samples, and keep their entries in order. -/
theorem forall₂_reshape (hshape : m.sampleShape.mapM Value.whole? = some (shape.map Int.ofNat)) {x : Samples α}
    (hfits : x.Fits shape) : ∃ inputs, reshape m x = .ok inputs ∧ List.Forall₂ (fun raw input =>
      input.dims = shape ∧ input.value.entries = raw.value.entries) x.tensors inputs.tensors := by
  refine ⟨⟨shape, x.items.map fun a => a.reshape shape⟩, ?_, ?_⟩
  · have hshaped : x.reshape? shape = some ⟨shape, x.items.map fun a => a.reshape shape⟩ := if_pos hfits
    rw [reshape_eq hshape, hshaped, RunError.fit]
  · simp only [Samples.tensors, Array.toList_map, List.map_map]
    rw [List.forall₂_map_left_iff, List.forall₂_map_right_iff, List.forall₂_same]
    intro a ha
    refine ⟨rfl, ?_⟩
    rcases hfits with hvolume | hnone
    · exact Tensor.entries_reshape hvolume a
    · have hempty : x.items.toList = [] := List.eq_nil_of_length_eq_zero hnone
      rw [hempty] at ha
      contradiction

/-- A split that was read as samples is prepared if its inputs fit. -/
theorem exists_prepare (hshape : m.sampleShape.mapM Value.whole? = some (shape.map Int.ofNat)) {inputs labels : AnyTensor α}
    {raw : LabelledSamples α} (hraw : LabelledSamples.ofTensors inputs labels = .ok raw)
    (hclassed : raw.labels.Classed m.classes count) (hfits : raw.inputs.Fits shape) :
    ∃ prepared, prepare m inputs labels = .ok prepared ∧
      List.Forall₂ (fun raw input => input.dims = shape ∧ input.value.entries = raw.value.entries)
        raw.inputs.tensors prepared.inputs.tensors ∧
      List.Forall₂ (Label.IsRow count) raw.labels.tensors prepared.labels.tensors := by
  obtain ⟨x, hx, hrest⟩ := bind_eq_ok.mp hraw
  obtain ⟨y, hy, hpair⟩ := bind_eq_ok.mp hrest
  obtain rfl := pure_eq_ok.mp hpair
  obtain ⟨shaped, hshaped, hinputs⟩ := forall₂_reshape hshape hfits
  obtain ⟨rows, hrows, hlabels⟩ := forall₂_labelRows hy hclassed
  refine ⟨⟨shaped, rows⟩, ?_, hinputs, hlabels⟩
  simp only [prepare, hx, hshaped, hrows, bind, Except.bind, pure, Except.pure]

/-- Of prepared splits the one to train on is shuffled, and then both are kept in part. -/
theorem load_eq {d : Dataset α} {train test : LabelledSamples α}
    (htrain : prepare d.metadata d.tensors.trainInputs d.tensors.trainLabels = .ok train)
    (htest : prepare d.metadata d.tensors.testInputs d.tensors.testLabels = .ok test) (options : LoadOptions) (s : Stream) :
    (d.load options s).1 = do
      let train ← ((if options.shuffle.isOn then train.shuffle options.seed else pure (.ok train)) s).1
      return ⟨← train.keep options.trainRatio, ← test.keep options.testRatio⟩ := by
  rw [load, htrain, htest]
  cases options.shuffle.isOn <;> rfl

omit [Scalar α] in
/-- A prepared split has as many samples as it had, and they are still paired. -/
theorem length_prepared {raw prepared : LabelledSamples α} (hpaired : raw.inputs.length = raw.labels.length)
    {R R' : AnyTensor α → AnyTensor α → Prop} (hinputs : List.Forall₂ R raw.inputs.tensors prepared.inputs.tensors)
    (hlabels : List.Forall₂ R' raw.labels.tensors prepared.labels.tensors) :
    prepared.inputs.length = raw.inputs.length ∧ prepared.inputs.length = prepared.labels.length := by
  have hinput := hinputs.length_eq
  have hlabel := hlabels.length_eq
  simp only [Samples.length_tensors] at hinput hlabel
  omega

/-- One whose inputs do not fit is refused. -/
theorem prepare_of_not_fits (hshape : m.sampleShape.mapM Value.whole? = some (shape.map Int.ofNat))
    {inputs labels : AnyTensor α} {raw : LabelledSamples α} (hraw : LabelledSamples.ofTensors inputs labels = .ok raw)
    (hunfit : ¬ raw.inputs.Fits shape) : prepare m inputs labels = .error .mismatch := by
  obtain ⟨x, hx, hrest⟩ := bind_eq_ok.mp hraw
  obtain ⟨y, hy, hpair⟩ := bind_eq_ok.mp hrest
  obtain rfl := pure_eq_ok.mp hpair
  have hnone : x.reshape? shape = none := if_neg hunfit
  simp only [prepare, hx, reshape_eq hshape, hnone, RunError.fit, bind, Except.bind]

end Dataset

/-! ## Ordering and keeping -/

namespace LabelledSamples

/-- Samples in an order of their places. -/
structure Ordered (x : LabelledSamples α) (order : List Nat) (y : LabelledSamples α) : Prop where
  length : y.inputs.length = order.length
  inputs : y.inputs.tensors.map some = order.map (x.inputs.tensors[·]?)
  labels : y.labels.tensors.map some = order.map (x.labels.tensors[·]?)

theorem ordered_range {x : LabelledSamples α} (hpaired : x.inputs.length = x.labels.length) :
    x.Ordered (List.range x.inputs.length) x := by
  have hinputs := map_some_eq_range x.inputs.tensors
  have hlabels := map_some_eq_range x.labels.tensors
  rw [Samples.length_tensors] at hinputs hlabels
  rw [← hpaired] at hlabels
  exact ⟨by simp, hinputs, hlabels⟩

theorem ordered_pick {x : LabelledSamples α} (hpaired : x.inputs.length = x.labels.length) {order : List Nat}
    (horder : ∀ i ∈ order, i < x.inputs.length) : x.Ordered order (x.pick order) :=
  ⟨x.inputs.length_pick horder, x.inputs.tensors_pick horder, x.labels.tensors_pick fun i hi => hpaired ▸ horder i hi⟩

/-- Samples that are shuffled or not are in some order, and in their own if they are not. -/
theorem exists_order {x : LabelledSamples α} (hpaired : x.inputs.length = x.labels.length) (on : Bool) (seed : Option Int)
    (s : Stream) : ∃ order y, order.Perm (List.range x.inputs.length) ∧ (on = false → order = List.range x.inputs.length) ∧
      ((if on then x.shuffle seed else pure (.ok x)) s).1 = .ok y ∧ x.Ordered order y := by
  cases on with
  | false => exact ⟨_, x, .refl _, fun _ => rfl, rfl, ordered_range hpaired⟩
  | true =>
      have hpairs : x.isPaired = true := by simp [isPaired, hpaired]
      have hperm : (Samples.order seed x.inputs.length s).1.Perm (List.range x.inputs.length) := by
        cases seed with
        | none => exact Draw.perm_permutation _ s
        | some seed => exact Draw.perm_permutation _ _
      refine ⟨_, x.pick (Samples.order seed x.inputs.length s).1, hperm, nofun, ?_, ordered_pick hpaired fun i hi => ?_⟩
      · rw [if_pos rfl, shuffle, if_pos hpairs]
        rfl
      · exact List.mem_range.mp (hperm.mem_iff.mp hi)

end LabelledSamples

/-- How many of `n` samples a ratio keeps: none of none, else at least one. -/
def Number.keeps (r : Number) (n : Nat) : Nat := if n = 0 then 0 else max 1 ((r.share n).nearest?.getD 0).toNat

/-- What is loaded of a split: its samples at places of their own, as many as the ratio keeps.  The inputs have the shape of
samples and the entries they had, and each label has its row. -/
structure LabelledSamples.Loaded [Scalar α] (raw : LabelledSamples α) (shape : Dims) (count : Nat) (r : Number)
    (places : List Nat) (loaded : LabelledSamples α) : Prop where
  nodup : places.Nodup
  below : ∀ i ∈ places, i < raw.inputs.length
  length : places.length = min (r.keeps raw.inputs.length) raw.inputs.length
  counted : r.Counts raw.inputs.length → ∃ q : Nat, (r.share raw.inputs.length).nearest? = some (q : Int) ∧
    places.length = if raw.inputs.length = 0 then 0 else max 1 q
  inputs : List.Forall₂ (fun i input => ∃ a, raw.inputs.tensors[i]? = some a ∧ input.dims = shape ∧
    input.value.entries = a.value.entries) places loaded.inputs.tensors
  labels : List.Forall₂ (fun i row => ∃ label, raw.labels.tensors[i]? = some label ∧ Label.IsRow count label row)
    places loaded.labels.tensors

namespace LabelledSamples

variable [Scalar α] {ratio : Value} {r : Number}

omit [Scalar α] in
theorem kept_eq (n : Nat) (hr : ratio.quantity? = some r) (hlow : Number.lt (.int 0) r = true)
    (hhigh : Number.le r (.int 1) = true) : kept n ratio = .ok (r.keeps n) := by
  rw [kept, hr]
  simp only [hlow, hhigh, Bool.and_self, if_true]
  rfl

omit [Scalar α] in
/-- A ratio above zero and up to one keeps the first samples. -/
theorem keep_eq (x : LabelledSamples α) (hr : ratio.quantity? = some r) (hlow : Number.lt (.int 0) r = true)
    (hhigh : Number.le r (.int 1) = true) : x.keep ratio = .ok (x.take (r.keeps x.inputs.length)) := by
  rw [keep, kept_eq _ hr hlow hhigh]
  rfl

/-- A prepared split that is put in an order and kept in part is loaded. -/
theorem loaded_of_ordered {raw prepared ordered : LabelledSamples α} {shape : Dims} {count : Nat} {order : List Nat}
    (hinputs : List.Forall₂ (fun a input => input.dims = shape ∧ input.value.entries = a.value.entries)
      raw.inputs.tensors prepared.inputs.tensors)
    (hlabels : List.Forall₂ (Label.IsRow count) raw.labels.tensors prepared.labels.tensors)
    (horder : order.Perm (List.range raw.inputs.length)) (hordered : prepared.Ordered order ordered)
    (hlow : Number.lt (.int 0) r = true) (hhigh : Number.le r (.int 1) = true) :
    raw.Loaded shape count r (order.take (r.keeps raw.inputs.length)) (ordered.take (r.keeps raw.inputs.length)) := by
  have hlength : order.length = raw.inputs.length := by rw [horder.length_eq, List.length_range]
  have hkept : (order.take (r.keeps raw.inputs.length)).length =
      min (r.keeps raw.inputs.length) raw.inputs.length := by rw [List.length_take, hlength]
  refine ⟨?nodup, ?below, hkept, ?counted, ?inputs, ?labels⟩
  case nodup => exact (horder.nodup_iff.mpr List.nodup_range).sublist (List.take_sublist _ _)
  case below => exact fun i hi => List.mem_range.mp (horder.mem_iff.mp (List.mem_of_mem_take hi))
  case counted =>
    intro hcounts
    obtain ⟨q, hq, hle⟩ := Number.nearest?_share_le hlow hhigh hcounts
    refine ⟨q, hq, ?_⟩
    rw [hkept, Number.keeps, hq]
    by_cases hnone : raw.inputs.length = 0
    · simp [hnone]
    · simp only [if_neg hnone, Option.getD_some, Int.toNat_natCast]
      omega
  case inputs =>
    refine forall₂_of_picked hinputs ?_
    rw [LabelledSamples.take, Samples.tensors_take, List.map_take, hordered.inputs, List.map_take]
  case labels =>
    refine forall₂_of_picked hlabels ?_
    rw [LabelledSamples.take, Samples.tensors_take, List.map_take, hordered.labels, List.map_take]

end LabelledSamples

/-! ## Loading -/

namespace Dataset

variable [Scalar α] {name : Value} {tensors : DatasetTensors α} {o : DatasetOptions} {d : Dataset α}

/-- The axes of a sample that is fed to a model: as in the tensor of its split, but for a number of channels in place of the
last length if there is one. -/
def sampleAxes (channels : Int) (sample : Dims) : Dims := if 0 < channels then sample.dropLast ++ [channels.toNat] else sample

/-- The integers in a shape without and with channels. -/
theorem sampleShape_eq {c : Int} {m : DatasetMetadata} (hc : m.channels.quantity? = some (.int c)) {s : Dims}
    (hinput : m.inputShape = if hasChannels m.channels then (s.map Int.ofNat).dropLast else s.map Int.ofNat) :
    m.sampleShape.mapM Value.whole? = some ((sampleAxes c s).map Int.ofNat) := by
  have hwhole : m.channels.whole? = some c := by
    cases hchannels : m.channels with
    | text t =>
        rw [hchannels] at hc
        contradiction
    | _ =>
        rw [hchannels] at hc
        simp [Value.whole?, hc, Number.truncate?]
  have hints (l : List Int) : (l.map Value.int).mapM Value.whole? = some l := by
    induction l with
    | nil => rfl
    | cons n l ih =>
        have hn : (Value.int n).whole? = some n := rfl
        rw [List.map_cons, List.mapM_cons, hn, ih]
        rfl
  have hpositive : hasChannels m.channels = decide (0 < c) := by
    rw [Bool.eq_iff_iff]
    simp [hasChannels, hc, Number.lt, Number.compare?, Int.compare_eq_lt]
  rw [DatasetMetadata.sampleShape, hinput, sampleAxes, hpositive]
  by_cases h : 0 < c
  · have hcount : Int.ofNat c.toNat = c := Int.toNat_of_nonneg h.le
    have hlast : [m.channels].mapM Value.whole? = some [c] := by
      rw [List.mapM_cons, hwhole]
      rfl
    simp only [h, decide_true, if_true, ← List.map_dropLast]
    rw [List.mapM_append, hints, hlast, List.map_append, List.map_cons, List.map_nil, hcount]
    rfl
  · simp only [h, decide_false, Bool.false_eq_true, if_false, List.append_nil, hints]

theorem ofTensors_eq_ok (hd : ofTensors name tensors o = .ok d) {c : Int} (hchannels : o.channels.quantity? = some (.int c))
    {x : Samples α} (hx : Samples.ofTensor tensors.trainInputs = .ok x) :
    d.tensors = tensors ∧ d.metadata.sampleShape.mapM Value.whole? = some ((sampleAxes c x.sample).map Int.ofNat) := by
  obtain ⟨classes, _, hmade⟩ := bind_eq_ok.mp hd
  split at hmade
  · next n s n' s' hdims hdims' =>
      obtain rfl := Except.ok.inj hmade
      have hsample : x.sample = s := by
        generalize tensors.trainInputs = inputs at hx hdims
        obtain ⟨dims, value⟩ := inputs
        obtain rfl : dims = n :: s := hdims
        obtain rfl := Except.ok.inj hx
        rfl
      refine ⟨rfl, sampleShape_eq hchannels ?_⟩
      rw [hsample]
  · contradiction

end Dataset

end LayerStack
