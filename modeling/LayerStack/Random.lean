import LayerStack.Tensor
import LayerStack.Word

/-!
# LayerStack.Random

The stream of random numbers, and what is drawn from it.

The stream is a linear congruential one over 64-bit words; a draw is its upper 53 bits as a fraction of one.  Everything
random in the library is a `Draw` that says how many numbers it takes and in which order, so a run can be repeated from
its seed.
-/

namespace LayerStack

/-- A stream of random numbers. -/
structure Stream where
  state : UInt64
deriving Repr, DecidableEq, Inhabited

namespace Stream

def ofSeed (seed : Int) : Stream := ⟨UInt64.ofNat (Word.wrap seed).toNat⟩

/-- All numbers of a stream are below this one, two to the power of 53. -/
def bound : Nat := 9007199254740992

/-- The next number. -/
def next (s : Stream) : Nat × Stream :=
  let state := s.state * 6364136223846793005 + 1442695040888963407
  ((state >>> 11).toNat, ⟨state⟩)

theorem next_lt_bound (s : Stream) : s.next.1 < bound := by
  have h := (s.state * 6364136223846793005 + 1442695040888963407).toNat_lt
  have e : Nat.pow 2 (11 % 64) = 2048 := rfl
  simp only [next, bound, UInt64.toNat_shiftRight, Nat.shiftRight_eq_div_pow, UInt64.reduceToNat]
  rw [← Nat.pow_eq, e]
  omega

end Stream

/-- What takes numbers from a stream. -/
abbrev Draw (β : Type) := StateM Stream β

namespace Draw

variable {σ α β : Type}

/-- A number from 0 up to below 1. -/
def unit [Scalar α] : Draw α := fun s =>
  let (k, s) := s.next
  ((k : α) / (Stream.bound : α), s)

/-- A number from `lo` up to `hi`. -/
def uniform [Scalar α] (lo hi : α) : Draw α := fun s =>
  let (u, s) := unit s
  (lo + (hi - lo) * u, s)

/-- A number spread around zero: evenly from `-3` up to `3`. -/
def spread [Scalar α] : Draw α := fun s =>
  let (u, s) := unit s
  (((6 : Nat) : α) * u - ((3 : Nat) : α), s)

/-- A number from `0` to `n`. -/
def upTo (n : Nat) : Draw Nat := fun s =>
  let (k, s) := s.next
  (k * (n + 1) / Stream.bound, s)

theorem upTo_le (n : Nat) (s : Stream) : (upTo n s).1 ≤ n := by
  refine Nat.le_of_lt_succ ((Nat.div_lt_iff_lt_mul (by decide)).2 ?_)
  rw [Nat.mul_comm (n + 1)]
  exact Nat.mul_lt_mul_of_pos_right s.next_lt_bound (Nat.succ_pos n)

/-! ## Many draws -/

/-- Draws a number of times. -/
def many (draw : StateM σ β) (n : Nat) : StateM σ (Array β) := go n #[]
where
  go : Nat → Array β → StateM σ (Array β)
    | 0, drawn => fun s => (drawn, s)
    | n + 1, drawn => fun s =>
      let (b, s) := draw s
      go n (drawn.push b) s

theorem size_many_go (draw : StateM σ β) (n : Nat) (drawn : Array β) (s : σ) :
    (many.go draw n drawn s).1.size = drawn.size + n := by
  induction n generalizing drawn s with
  | zero => rfl
  | succ n ih => exact (ih (drawn.push (draw s).1) (draw s).2).trans (by rw [Array.size_push]; omega)

theorem size_many (draw : StateM σ β) (n : Nat) (s : σ) : (many draw n s).1.size = n := by
  simp [many, size_many_go]

/-- A tensor of draws, in row-major order. -/
def tensor [Zero α] (draw : StateM σ α) (s : Dims) : StateM σ (Tensor α s) := do
  return Tensor.ofArray s (← many draw (Dims.volume s))

/-- Draws anew, in order, the numbers that are outside. -/
def redraw (inside : α → Bool) (draw : StateM σ α) (drawn : List α) : StateM σ (List α) :=
  drawn.mapM fun a => if inside a then pure a else draw

/-- What stands at all positions after a round of draws, and where their source stands then. -/
structure Round (σ α : Type) where
  values : List α
  source : σ

namespace Round

/-- The next round. -/
def next (inside : α → Bool) (draw : StateM σ α) (round : Round σ α) : Round σ α :=
  let (values, source) := redraw inside draw round.values round.source
  { values, source }

/-- Round after round until no number is outside, if it ever comes to that. -/
def settle? (inside : α → Bool) (draw : StateM σ α) (round : Round σ α) : Option (Round σ α) :=
  if round.values.all inside then some round
  else round.next inside draw |>.settle? inside draw
partial_fixpoint

end Round

/-- A tensor of draws none of which is outside, if the rounds end. -/
def tensorInside? [Zero α] (inside : α → Bool) (draw : StateM σ α) (shape : Dims) (s : σ) :
    Option (Tensor α shape × σ) :=
  let first := many draw (Dims.volume shape) s
  (Round.settle? inside draw ⟨first.1.toList, first.2⟩).map fun last =>
    (Tensor.ofArray shape last.values.toArray, last.source)

/-- A tensor of draws none of which is outside.  Where the rounds do not end no run comes to one; zeros stand for it. -/
def tensorInside [Zero α] (inside : α → Bool) (draw : StateM σ α) (shape : Dims) : StateM σ (Tensor α shape) := fun s =>
  (tensorInside? inside draw shape s).getD (Tensor.zeros shape, s)

/-! ## Shuffling -/

/-- Swaps, from the last place down to the second, each place with a drawn one from the first up to itself. -/
def shuffle (items : Array β) : Draw (Array β) := go (items.size - 1) items
where
  go : Nat → Array β → Draw (Array β)
    | 0, items => fun s => (items, s)
    | i + 1, items => fun s =>
      let (j, s) := upTo (i + 1) s
      go i (items.swapIfInBounds (i + 1) j) s

theorem size_shuffle_go (n : Nat) (items : Array β) (s : Stream) : (shuffle.go n items s).1.size = items.size := by
  induction n generalizing items s with
  | zero => rfl
  | succ n ih =>
    rw [shuffle.go]
    generalize upTo (n + 1) = draw
    exact (ih (items.swapIfInBounds (n + 1) (draw s).1) (draw s).2).trans Array.size_swapIfInBounds

theorem size_shuffle (items : Array β) (s : Stream) : (shuffle items s).1.size = items.size :=
  size_shuffle_go _ items s

/-- The numbers below `n` in random order. -/
def permutation (n : Nat) : Draw (Array Nat) := shuffle (Array.range n)

end Draw

end LayerStack
