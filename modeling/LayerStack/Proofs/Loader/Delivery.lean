import Mathlib.Logic.Function.Iterate
import LayerStack.Proofs.Loader
import LayerStack.Proofs.Tensor.Samples

/-!
# LayerStack.Proofs.Loader.Delivery

An epoch delivers every sample once, with its own label.

Three facts make it up.  A shuffle is a row of swaps, each with a place that is drawn from the first up to the swapped
one (`Draw.shuffle_eq`), and swaps only change the order.  Cutting makes pieces of one size behind one another
(`getElem?_chunks`), and to leave out a short last one is to cut what is left of the order before it (`cut_eq`).  And what
is picked at the places of the pieces is what is at those of the whole order.  The main statement is `delivers`.
-/

namespace LayerStack

/-! ## Shuffling -/

/-- A stream after some draws. -/
def Stream.after (k : Nat) (s : Stream) : Stream := (fun s => s.next.2)^[k] s

namespace Draw

variable {β : Type}

/-- Items after swaps, from a place down to the second, each with the place that is given for it. -/
def swapped (place : Nat → Nat) : Nat → Array β → Array β
  | 0, items => items
  | i + 1, items => swapped place i (items.swapIfInBounds (i + 1) (place (i + 1)))

/-- The places that are drawn for the swaps of a shuffle of `n` items, of which the last one is swapped first. -/
def places (n : Nat) (s : Stream) (i : Nat) : Nat := (upTo i (s.after (n - 1 - i))).1

/-- A place is swapped with one from the first up to itself. -/
theorem places_le (n : Nat) (s : Stream) (i : Nat) : places n s i ≤ i := upTo_le i _

/-- Of the places that are given only those of the swaps count. -/
theorem swapped_congr {place place' : Nat → Nat} {n : Nat} (h : ∀ i, i ≤ n → place i = place' i) (items : Array β) :
    swapped place n items = swapped place' n items := by
  induction n generalizing items with
  | zero => rfl
  | succ n ih =>
      have hrest := ih fun i hi => h i (Nat.le_succ_of_le hi)
      rw [swapped, swapped, h (n + 1) (Nat.le_refl _), hrest]

theorem upTo_snd (n : Nat) (s : Stream) : (upTo n s).2 = s.next.2 := by
  unfold upTo
  generalize s.next = drawn
  rfl

theorem after_succ (k : Nat) (s : Stream) : s.after (k + 1) = s.next.2.after k := Function.iterate_succ_apply _ k s

theorem shuffle_go_eq (n : Nat) (items : Array β) (s : Stream) :
    shuffle.go n items s = (swapped (places (n + 1) s) n items, s.after n) := by
  induction n generalizing items s with
  | zero => rfl
  | succ n ih =>
      have hlater : ∀ i, i ≤ n → places (n + 1) s.next.2 i = places (n + 2) s i := by
        intro i hi
        have hdrawn : n + 2 - 1 - i = (n + 1 - 1 - i) + 1 := by omega
        rw [places, places, hdrawn, after_succ]
      have hfirst : places (n + 2) s (n + 1) = (upTo (n + 1) s).1 := by
        have hnone : n + 2 - 1 - (n + 1) = 0 := by omega
        rw [places, hnone]
        rfl
      have hstep : shuffle.go (n + 1) items s =
          shuffle.go n (items.swapIfInBounds (n + 1) (upTo (n + 1) s).1) s.next.2 := by
        rw [shuffle.go, ← upTo_snd (n + 1) s]
        generalize upTo (n + 1) = draw
        rfl
      rw [hstep, swapped, hfirst, ← swapped_congr hlater, after_succ]
      exact ih _ _

/-- A shuffle is a row of swaps. -/
theorem shuffle_eq (items : Array β) (s : Stream) :
    (shuffle items s).1 = swapped (places items.size s) (items.size - 1) items := by
  rw [shuffle, shuffle_go_eq]
  cases hsize : items.size with
  | zero => rfl
  | succ n => rfl

end Draw

/-! ## Cutting -/

section Chunks

variable {β : Type} {k : Nat}

theorem chunks_of_ne_nil (hk : 0 < k) {l : List β} (hl : l ≠ []) : chunks k l = l.take k :: chunks k (l.drop k) := by
  obtain ⟨k, rfl⟩ := Nat.exists_eq_add_of_lt hk
  cases l with
  | nil => contradiction
  | cons x xs => simp [chunks]

/-- The pieces are behind one another, each of the same size. -/
theorem getElem?_chunks (hk : 0 < k) (l : List β) (i : Nat) :
    (chunks k l)[i]? = if i * k < l.length then some ((l.drop (i * k)).take k) else none := by
  induction i generalizing l with
  | zero =>
      cases l with
      | nil => simp [chunks]
      | cons x xs => simp [chunks_of_ne_nil hk]
  | succ i ih =>
      have hstep : (i + 1) * k = k + i * k := by rw [Nat.succ_mul, Nat.add_comm]
      cases hl : l with
      | nil => simp [chunks]
      | cons x xs =>
          have hlonger : k + i * k < l.length ↔ i * k < (l.drop k).length := by
            rw [List.length_drop]
            omega
          rw [← hl, chunks_of_ne_nil hk (by simp [hl]), List.getElem?_cons_succ, ih, hstep, List.drop_drop]
          simp only [hlonger]

theorem length_getElem_chunks (hk : 0 < k) (l : List β) {i : Nat} (h : i < (chunks k l).length) :
    (chunks k l)[i].length = min k (l.length - i * k) ∧ i * k < l.length := by
  have hpiece := getElem?_chunks hk l i
  rw [List.getElem?_eq_getElem h] at hpiece
  split at hpiece
  · next hlt =>
      have heq := Option.some.inj hpiece
      rw [heq]
      simp [hlt]
  · contradiction

/-- The pieces of full size are those of the part of a list that is cut without a rest. -/
theorem filter_chunks (hk : 0 < k) (l : List β) :
    (chunks k l).filter (·.length == k) = chunks k (l.take (k * (l.length / k))) := by
  induction hn : l.length using Nat.strongRecOn generalizing l with
  | ind n ih =>
      subst hn
      rcases Nat.lt_or_ge l.length k with hshort | hlong
      · have hnone : l.length / k = 0 := Nat.div_eq_of_lt hshort
        have hsmall : ∀ piece ∈ chunks k l, ¬ (piece.length == k) = true := by
          intro piece hpiece
          obtain ⟨i, hi, rfl⟩ := List.getElem_of_mem hpiece
          have hlength := length_getElem_chunks hk l hi
          simp only [beq_iff_eq]
          omega
        rw [List.filter_eq_nil_iff.mpr hsmall, hnone, Nat.mul_zero, List.take_zero, chunks]
      · have hne : l ≠ [] := List.ne_nil_of_length_pos (by omega)
        have hcount : l.length / k = (l.drop k).length / k + 1 := by
          rw [List.length_drop, ← Nat.sub_add_cancel hlong, Nat.add_div_right _ hk, Nat.add_sub_cancel]
        have hfull : (l.take k).length = k := by rw [List.length_take, Nat.min_eq_left hlong]
        have hkept : l.take (k * (l.length / k)) ≠ [] := by
          refine List.ne_nil_of_length_pos ?_
          rw [List.length_take, hcount, Nat.mul_succ]
          omega
        have hfirst : (l.take (k * (l.length / k))).take k = l.take k := by
          rw [List.take_take, hcount, Nat.mul_succ, Nat.min_eq_left (by omega)]
        have hrest : (l.take (k * (l.length / k))).drop k = (l.drop k).take (k * ((l.drop k).length / k)) := by
          rw [List.drop_take, hcount, Nat.mul_succ, Nat.add_sub_cancel]
        have hshorter : (l.drop k).length < l.length := by
          rw [List.length_drop]
          omega
        rw [chunks_of_ne_nil hk hne, chunks_of_ne_nil hk hkept, hfirst, hrest, List.filter_cons_of_pos (by simp [hfull]),
          ih _ hshorter _ rfl]

end Chunks

/-! ## Epochs -/

namespace Loader

variable {α : Type}

/-- The number of samples that an epoch delivers: all, or as many as fill batches. -/
def delivered (l : Loader α) : Nat := if l.dropLast then l.batchSize * (l.length / l.batchSize) else l.length

theorem delivered_le (l : Loader α) : l.delivered ≤ l.length := by
  unfold delivered
  split
  · exact Nat.mul_div_le l.length l.batchSize
  · exact Nat.le_refl _

/-- There are as many batches as the size of a loader says. -/
theorem size_eq (l : Loader α) : l.size = (l.delivered + l.batchSize - 1) / l.batchSize := by
  have hpos := l.batchSize_pos
  unfold size delivered
  split
  · have hround : l.batchSize * (l.length / l.batchSize) + l.batchSize - 1 =
        l.batchSize * (l.length / l.batchSize) + (l.batchSize - 1) := by omega
    have hrest : (l.batchSize - 1) / l.batchSize = 0 := Nat.div_eq_of_lt (by omega)
    rw [hround, Nat.mul_add_div hpos, hrest, Nat.add_zero]
  · rfl

/-- To leave out a short last piece is to cut what comes before it. -/
theorem cut_eq (l : Loader α) {order : List Nat} (h : order.length = l.length) :
    l.cut order = chunks l.batchSize (order.take l.delivered) := by
  unfold cut delivered
  cases l.dropLast with
  | false =>
      rw [if_neg Bool.false_ne_true, if_neg Bool.false_ne_true, ← h, List.take_length]
  | true =>
      rw [if_pos rfl, if_pos rfl, filter_chunks l.batchSize_pos, h]

variable {l : Loader α} {s : Stream}

theorem order_of_shuffle (h : l.shuffle = true) :
    (l.order s).1 = (Draw.swapped (Draw.places l.length s) (l.length - 1) (Array.range l.length)).toList := by
  have hshuffled := Draw.shuffle_eq (Array.range l.length) s
  rw [Array.size_range] at hshuffled
  rw [order, if_pos h, ← hshuffled]
  rfl

theorem order_of_not_shuffle (h : l.shuffle = false) : (l.order s).1 = List.range l.length := by
  rw [order, h]
  rfl

theorem epoch_eq_chunks (l : Loader α) (s : Stream) :
    (l.epoch s).1 = (chunks l.batchSize ((l.order s).1.take l.delivered)).map l.samples.pick := by
  have horder : (l.order s).1.length = l.length := by
    rw [(l.perm_order s).length_eq, List.length_range]
  rw [← l.cut_eq horder]
  rfl

/-- The places that an epoch delivers are those of samples. -/
theorem lt_of_mem_delivered {i : Nat} (h : i ∈ (l.order s).1.take l.delivered) : i < l.length := by
  have horder := (l.perm_order s).mem_iff.mp (List.mem_of_mem_take h)
  exact List.mem_range.mp horder

theorem length_delivered (l : Loader α) (s : Stream) : ((l.order s).1.take l.delivered).length = l.delivered := by
  have hle := l.delivered_le
  rw [List.length_take, (l.perm_order s).length_eq, List.length_range, Nat.min_eq_left hle]

/-- There are as many batches as a loader says. -/
theorem length_epoch_eq_size (l : Loader α) (s : Stream) : (l.epoch s).1.length = l.size := by
  rw [epoch_eq_chunks, List.length_map, length_chunks l.batchSize_pos, length_delivered, size_eq]

/-- A batch is as long as is asked for, or as what is left of the places that are delivered. -/
theorem length_getElem_epoch (hpaired : l.samples.inputs.length = l.samples.labels.length) {i : Nat}
    (h : i < (l.epoch s).1.length) :
    (l.epoch s).1[i].inputs.length = min l.batchSize (l.delivered - i * l.batchSize) ∧
      (l.epoch s).1[i].labels.length = (l.epoch s).1[i].inputs.length ∧ i * l.batchSize < l.delivered := by
  have hcut := l.epoch_eq_chunks s
  have hi : i < (chunks l.batchSize ((l.order s).1.take l.delivered)).length := by
    rwa [hcut, List.length_map] at h
  have hbatch : (l.epoch s).1[i] = l.samples.pick (chunks l.batchSize ((l.order s).1.take l.delivered))[i] := by
    simp only [hcut, List.getElem_map]
  obtain ⟨hlength, hlt⟩ := length_getElem_chunks l.batchSize_pos _ hi
  rw [length_delivered] at hlength hlt
  have hbelow : ∀ j ∈ (chunks l.batchSize ((l.order s).1.take l.delivered))[i], j < l.length := by
    intro j hj
    refine lt_of_mem_delivered (s := s) ?_
    rw [← flatten_chunks l.batchSize ((l.order s).1.take l.delivered)]
    exact List.mem_flatten.mpr ⟨_, List.getElem_mem hi, hj⟩
  have hinputs : (l.epoch s).1[i].inputs.length = min l.batchSize (l.delivered - i * l.batchSize) := by
    rw [hbatch, ← hlength]
    exact l.samples.inputs.length_pick hbelow
  have hlabels : (l.epoch s).1[i].labels.length = min l.batchSize (l.delivered - i * l.batchSize) := by
    rw [hbatch, ← hlength]
    exact l.samples.labels.length_pick fun j hj => hpaired ▸ hbelow j hj
  exact ⟨hinputs, hlabels.trans hinputs.symm, hlt⟩

/-- A batch that another one follows is full, and so is every one if none may be shorter. -/
theorem full_of_next {i : Nat} (hlt : i * l.batchSize < l.delivered)
    (h : i + 1 < (l.epoch s).1.length ∨ l.dropLast = true) : l.batchSize ≤ l.delivered - i * l.batchSize := by
  have hpos := l.batchSize_pos
  rcases h with hnext | hdrop
  · rw [epoch_eq_chunks, List.length_map] at hnext
    have hlater := (length_getElem_chunks hpos _ hnext).2
    rw [length_delivered, Nat.succ_mul] at hlater
    omega
  · have hdelivered : l.delivered = l.length / l.batchSize * l.batchSize := by
      rw [delivered, if_pos hdrop, Nat.mul_comm]
    rw [hdelivered] at hlt ⊢
    have hi : i + 1 ≤ l.length / l.batchSize := Nat.lt_of_mul_lt_mul_right hlt
    have hle := Nat.mul_le_mul_right l.batchSize hi
    rw [Nat.succ_mul] at hle
    omega

/-- What is picked at the places of some pieces, one after the other, is what is at the places of all of them. -/
theorem tensors_pick_flatten {x : Samples α} {pieces : List (List Nat)} (h : ∀ i ∈ pieces.flatten, i < x.length) :
    (pieces.flatMap fun piece => (x.pick piece).tensors).map some = pieces.flatten.map (x.tensors[·]?) := by
  induction pieces with
  | nil => rfl
  | cons piece pieces ih =>
      rw [List.flatten_cons, List.forall_mem_append] at h
      obtain ⟨hpiece, hpieces⟩ := h
      rw [List.flatMap_cons, List.map_append, List.flatten_cons, List.map_append, x.tensors_pick hpiece, ih hpieces]

/-- The batches of an epoch, one after the other, have the inputs and the labels at the places that it delivers. -/
theorem tensors_epoch (hpaired : l.samples.inputs.length = l.samples.labels.length) (s : Stream) :
    ((l.epoch s).1.flatMap (·.inputs.tensors)).map some =
        ((l.order s).1.take l.delivered).map (l.samples.inputs.tensors[·]?) ∧
      ((l.epoch s).1.flatMap (·.labels.tensors)).map some =
        ((l.order s).1.take l.delivered).map (l.samples.labels.tensors[·]?) := by
  have hflatten := flatten_chunks l.batchSize ((l.order s).1.take l.delivered)
  have hinputs : ∀ i ∈ (chunks l.batchSize ((l.order s).1.take l.delivered)).flatten, i < l.samples.inputs.length := by
    intro i hi
    rw [hflatten] at hi
    exact lt_of_mem_delivered hi
  have hlabels : ∀ i ∈ (chunks l.batchSize ((l.order s).1.take l.delivered)).flatten, i < l.samples.labels.length :=
    fun i hi => hpaired ▸ hinputs i hi
  have hinput := tensors_pick_flatten hinputs
  have hlabel := tensors_pick_flatten hlabels
  rw [hflatten] at hinput hlabel
  rw [epoch_eq_chunks, List.flatMap_map, List.flatMap_map]
  exact ⟨hinput, hlabel⟩

/-- As many labels as inputs and a batch size of at least one make a loader. -/
theorem ofSettings_int (samples : LabelledSamples α) (hpaired : samples.inputs.length = samples.labels.length) {b : Nat}
    (hb : 1 ≤ b) (shuffle dropLast : Bool) : ofSettings samples (.int b) shuffle dropLast =
      .ok { samples, batchSize := b, batchSize_pos := hb, shuffle, dropLast } := by
  have hpairs : samples.isPaired = true := by simp [LabelledSamples.isPaired, hpaired]
  have hquantity : (Value.int b).quantity? = some (.int b) := rfl
  have hsize : Number.lt (.int b) (.int 1) = false := by
    have hint : ¬ (b : Int) < 1 := by omega
    simp [Number.lt, Number.compare?, Int.compare_eq_lt, hint]
  have hpos : 0 < (b : Int).toNat := by omega
  rw [ofSettings, if_pos hpairs, hquantity]
  simp only [hsize, Bool.false_eq_true, if_false, dif_pos hpos]
  rfl

/-- Let there be as many labels as inputs, `n` of them, and at least one sample in a batch.  A loader of them is made, and
from every random state an epoch has as many batches as the loader says.  Each has as many labels as inputs and is of the
size that is asked for, but for the last one, which may have fewer samples, though not none, if it is not to be left out.
One after the other the batches have the inputs, and the labels, at the places of one order, of which no place is there
twice: of an order of all `n`, or of as much of it as fills batches if a short one is left out.  That order is the
samples' own, or one that is made of it by swaps, each with a place that is drawn from the first up to the swapped one. -/
theorem delivers (samples : LabelledSamples α) (hpaired : samples.inputs.length = samples.labels.length) {b : Nat}
    (hb : 1 ≤ b) (shuffle dropLast : Bool) (s : Stream) :
    ∃ l, ofSettings samples (.int b) shuffle dropLast = .ok l ∧
      let n := samples.inputs.length
      let batches := (l.epoch s).1
      batches.length = l.size ∧
      (∀ i (h : i < batches.length),
        batches[i].labels.length = batches[i].inputs.length ∧ 0 < batches[i].inputs.length ∧
        batches[i].inputs.length ≤ b ∧ (i + 1 < batches.length ∨ dropLast = true → batches[i].inputs.length = b)) ∧
      ∃ order : List Nat, order.Perm (List.range n) ∧
        (shuffle = false → order = List.range n) ∧
        (shuffle = true → order = (Draw.swapped (Draw.places n s) (n - 1) (Array.range n)).toList) ∧
        (∀ i, Draw.places n s i ≤ i) ∧
        let places := order.take (if dropLast then b * (n / b) else n)
        places.Nodup ∧
        (batches.flatMap (·.inputs.tensors)).map some = places.map (samples.inputs.tensors[·]?) ∧
        (batches.flatMap (·.labels.tensors)).map some = places.map (samples.labels.tensors[·]?) := by
  refine ⟨_, ofSettings_int samples hpaired hb shuffle dropLast, ?_⟩
  generalize hl : ({ samples, batchSize := b, batchSize_pos := hb, shuffle, dropLast } : Loader α) = l
  obtain rfl : l.samples = samples := hl ▸ rfl
  obtain rfl : l.batchSize = b := hl ▸ rfl
  obtain rfl : l.shuffle = shuffle := hl ▸ rfl
  obtain rfl : l.dropLast = dropLast := hl ▸ rfl
  have horder := l.perm_order s
  have hnodup : (l.order s).1.Nodup := horder.nodup_iff.mpr List.nodup_range
  obtain ⟨hinputs, hlabels⟩ := tensors_epoch hpaired s
  refine ⟨l.length_epoch_eq_size s, ?sizes, (l.order s).1, horder, order_of_not_shuffle, order_of_shuffle,
    Draw.places_le _ s, hnodup.sublist (List.take_sublist _ _), hinputs, hlabels⟩
  case sizes =>
    intro i hi
    obtain ⟨hlength, hpairs, hlt⟩ := length_getElem_epoch hpaired hi
    have hpos := l.batchSize_pos
    refine ⟨hpairs, ?_, ?_, fun hfull => ?_⟩
    · omega
    · omega
    · have hleft := full_of_next hlt hfull
      omega

/-- Of five samples in shuffled pairs an epoch has two batches, and one sample is left out. -/
theorem delivers_pairs :
    let samples : LabelledSamples Nat := ⟨⟨[], #[10, 11, 12, 13, 14]⟩, ⟨[], #[0, 1, 2, 3, 4]⟩⟩
    let s := Stream.ofSeed 7
    samples.inputs.length = samples.labels.length ∧ 1 ≤ 2 ∧
      ∃ l, ofSettings samples (.int (2 : Nat)) true true = .ok l ∧ (l.epoch s).1.length = l.size ∧
        ∃ order : List Nat, order.Perm (List.range 5) ∧
          ((l.epoch s).1.flatMap (·.inputs.tensors)).map some = (order.take 4).map (samples.inputs.tensors[·]?) ∧
          ((l.epoch s).1.flatMap (·.labels.tensors)).map some = (order.take 4).map (samples.labels.tensors[·]?) := by
  intro samples s
  have hpaired : samples.inputs.length = samples.labels.length := rfl
  have hb : 1 ≤ 2 := by decide
  have hkept : (if true = true then 2 * (samples.inputs.length / 2) else samples.inputs.length) = 4 := by decide
  obtain ⟨l, hl, hcount, _, order, horder, _, _, _, _, hinputs, hlabels⟩ := delivers samples hpaired hb true true s
  rw [hkept] at hinputs hlabels
  exact ⟨hpaired, hb, l, hl, hcount, order, horder, hinputs, hlabels⟩

end Loader

end LayerStack
