import LayerStack.Random
import Mathlib.Algebra.GroupWithZero.Nat
import Mathlib.Data.List.Basic
import Mathlib.Logic.Function.Iterate

/-!
# LayerStack.Proofs.Random

Which number of a stream is drawn for which position.

A source is anything that numbers are drawn from, one after the other (`nth`).  A round of redrawing gives the next
numbers, in order, to the positions that are outside (`getElem?_redraw_of_outside`) and leaves all others alone
(`getElem?_redraw_of_inside`).  So the positions that a round draws for (`targets`) and how many numbers were drawn
before it (`used`) tell what stands at every position after it (`getElem?_rounds`).

Whether the rounds end is up to the source.  A round may leave as many numbers outside as there were, but then it has
come closer to the next number that is inside: rounds end wherever such numbers never cease (`Round.isSome_settle?`).
-/

namespace LayerStack.Draw

variable {σ α : Type} {draw : StateM σ α} {inside : α → Bool} {s : σ} {l : List α} {i j n r : Nat} {a : α}

/-! ## One draw after the other -/

/-- Where a source stands after some draws. -/
def after (draw : StateM σ α) (k : Nat) (s : σ) : σ := (fun s => (draw s).2)^[k] s

/-- A number of those that are drawn one after the other; the first one is number zero. -/
def nth (draw : StateM σ α) (s : σ) (k : Nat) : α := (draw (after draw k s)).1

theorem after_add (draw : StateM σ α) (j k : Nat) (s : σ) : after draw (j + k) s = after draw k (after draw j s) := by
  rw [after, Nat.add_comm, Function.iterate_add_apply]
  rfl

theorem nth_after (draw : StateM σ α) (s : σ) (j k : Nat) : nth draw (after draw j s) k = nth draw s (j + k) := by
  rw [nth, nth, after_add]

theorem many_go_eq (draw : StateM σ α) (n : Nat) (drawn : Array α) (s : σ) :
    many.go draw n drawn s = (drawn ++ ((List.range n).map (nth draw s)).toArray, after draw n s) := by
  induction n generalizing drawn s with
  | zero => simp [many.go, after]
  | succ n ih =>
      have hlater : (List.range (n + 1)).map (nth draw s) = (draw s).1 :: (List.range n).map (nth draw (draw s).2) := by
        rw [List.range_succ_eq_map, List.map_cons, List.map_map]
        rfl
      refine (ih (drawn.push (draw s).1) (draw s).2).trans ?_
      rw [hlater, List.toArray_cons, Array.push_eq_append, Array.append_assoc]
      rfl

/-- Many draws are the first numbers of a source. -/
theorem many_eq (draw : StateM σ α) (n : Nat) (s : σ) :
    many draw n s = (((List.range n).map (nth draw s)).toArray, after draw n s) := by
  rw [many, many_go_eq, Array.empty_append]

/-! ## A round -/

theorem redraw_cons_of_inside (h : inside a) : redraw inside draw (a :: l) s =
    (a :: (redraw inside draw l s).1, (redraw inside draw l s).2) := by
  rw [redraw, List.mapM_cons, if_pos h]
  rfl

theorem redraw_cons_of_outside (h : ¬ inside a) : redraw inside draw (a :: l) s =
    ((draw s).1 :: (redraw inside draw l (draw s).2).1, (redraw inside draw l (draw s).2).2) := by
  rw [redraw, List.mapM_cons, if_neg h]
  rfl

theorem length_redraw (inside : α → Bool) (draw : StateM σ α) (l : List α) (s : σ) :
    (redraw inside draw l s).1.length = l.length := by
  induction l generalizing s with
  | nil => rfl
  | cons a l ih =>
      by_cases ha : inside a
      · rw [redraw_cons_of_inside ha, List.length_cons, List.length_cons, ih]
      · rw [redraw_cons_of_outside ha, List.length_cons, List.length_cons, ih]

/-- A round draws as many numbers as are outside. -/
theorem snd_redraw (inside : α → Bool) (draw : StateM σ α) (l : List α) (s : σ) :
    (redraw inside draw l s).2 = after draw (l.countP fun a => !inside a) s := by
  induction l generalizing s with
  | nil => rfl
  | cons a l ih =>
      by_cases ha : inside a
      · rw [redraw_cons_of_inside ha, List.countP_cons_of_neg (by simp [ha]), ih]
      · rw [redraw_cons_of_outside ha, List.countP_cons_of_pos (by simp [ha]), ih]
        rfl

/-- A round leaves what is inside alone. -/
theorem getElem?_redraw_of_inside (hi : l[i]? = some a) (ha : inside a) :
    (redraw inside draw l s).1[i]? = some a := by
  induction l generalizing s i with
  | nil => contradiction
  | cons b l ih =>
      by_cases hb : inside b
      · rw [redraw_cons_of_inside hb]
        cases i with
        | zero => exact hi
        | succ i => exact ih hi
      · rw [redraw_cons_of_outside hb]
        cases i with
        | zero =>
            obtain rfl : b = a := Option.some.inj hi
            contradiction
        | succ i => exact ih hi

/-- A round draws for the positions that are outside, in their order. -/
theorem getElem?_redraw_of_outside (h : (l.findIdxs fun a => !inside a)[j]? = some i) :
    (redraw inside draw l s).1[i]? = some (nth draw s j) := by
  induction l generalizing s j i with
  | nil => contradiction
  | cons a l ih =>
      rw [List.findIdxs_cons, List.findIdxs_start] at h
      by_cases ha : inside a
      · rw [if_neg (by simp [ha]), List.getElem?_map, Option.map_eq_some_iff] at h
        obtain ⟨i, hi, rfl⟩ := h
        rw [redraw_cons_of_inside ha]
        exact ih hi
      · rw [if_pos (by simp [ha])] at h
        rw [redraw_cons_of_outside ha]
        cases j with
        | zero =>
            obtain rfl : 0 = i := Option.some.inj h
            rfl
        | succ j =>
            rw [List.getElem?_cons_succ, List.getElem?_map, Option.map_eq_some_iff] at h
            obtain ⟨i, hi, rfl⟩ := h
            exact ih hi

/-- After a round those of its numbers are outside that are. -/
theorem countP_redraw (inside : α → Bool) (draw : StateM σ α) (l : List α) (s : σ) :
    (redraw inside draw l s).1.countP (fun a => !inside a) =
      (List.range (l.countP fun a => !inside a)).countP fun j => !inside (nth draw s j) := by
  induction l generalizing s with
  | nil => rfl
  | cons a l ih =>
      by_cases ha : inside a
      · rw [redraw_cons_of_inside ha, List.countP_cons_of_neg (by simp [ha]),
          List.countP_cons_of_neg (by simp [ha]), ih]
      · rw [redraw_cons_of_outside ha, List.countP_cons_of_pos (l := l) (by simp [ha]), List.range_succ_eq_map,
          List.countP_cons, List.countP_cons, List.countP_map, ih]
        rfl

theorem countP_redraw_le (inside : α → Bool) (draw : StateM σ α) (l : List α) (s : σ) :
    (redraw inside draw l s).1.countP (fun a => !inside a) ≤ l.countP fun a => !inside a := by
  rw [countP_redraw]
  exact Nat.le_trans List.countP_le_length (Nat.le_of_eq List.length_range)

/-- A round after which as many numbers are outside as before has drawn no number that is inside. -/
theorem outside_of_countP_redraw_eq
    (h : (redraw inside draw l s).1.countP (fun a => !inside a) = l.countP fun a => !inside a)
    (hj : j < l.countP fun a => !inside a) : inside (nth draw s j) = false := by
  have hall : ∀ j ∈ List.range (l.countP fun a => !inside a), !inside (nth draw s j) := by
    refine List.countP_eq_length.mp ?_
    rw [← countP_redraw, h, List.length_range]
  simpa using hall j (List.mem_range.mpr hj)

/-! ## Rounds -/

variable {round last : Round σ α}

theorem Round.next_values (inside : α → Bool) (draw : StateM σ α) (round : Round σ α) :
    (round.next inside draw).values = (redraw inside draw round.values round.source).1 := rfl

theorem Round.next_source (inside : α → Bool) (draw : StateM σ α) (round : Round σ α) :
    (round.next inside draw).source = (redraw inside draw round.values round.source).2 := rfl

/-- The rounds, one after the other.  Round zero draws for all positions. -/
def rounds (inside : α → Bool) (draw : StateM σ α) (n : Nat) (s : σ) (r : Nat) : Round σ α :=
  (Round.next inside draw)^[r] ⟨(many draw n s).1.toList, (many draw n s).2⟩

/-- The positions that a round draws for, in their order: all at first, and then those still outside. -/
def targets (inside : α → Bool) (draw : StateM σ α) (n : Nat) (s : σ) : Nat → List Nat
  | 0 => List.range n
  | r + 1 => (rounds inside draw n s r).values.findIdxs fun a => !inside a

/-- How many numbers are drawn before a round. -/
def used (inside : α → Bool) (draw : StateM σ α) (n : Nat) (s : σ) (r : Nat) : Nat :=
  ((List.range r).map fun q => (targets inside draw n s q).length).sum

theorem rounds_zero (inside : α → Bool) (draw : StateM σ α) (n : Nat) (s : σ) :
    rounds inside draw n s 0 = ⟨(List.range n).map (nth draw s), after draw n s⟩ := by
  rw [rounds, many_eq]
  rfl

theorem rounds_succ (inside : α → Bool) (draw : StateM σ α) (n : Nat) (s : σ) (r : Nat) :
    rounds inside draw n s (r + 1) = (rounds inside draw n s r).next inside draw :=
  Function.iterate_succ_apply' ..

theorem used_succ (inside : α → Bool) (draw : StateM σ α) (n : Nat) (s : σ) (r : Nat) :
    used inside draw n s (r + 1) = used inside draw n s r + (targets inside draw n s r).length := by
  simp [used, List.range_succ]

theorem length_rounds (inside : α → Bool) (draw : StateM σ α) (n : Nat) (s : σ) (r : Nat) :
    (rounds inside draw n s r).values.length = n := by
  induction r with
  | zero => simp [rounds_zero]
  | succ r ih => rw [rounds_succ, Round.next_values, length_redraw, ih]

/-- After a round the numbers drawn for it are used too. -/
theorem source_rounds (inside : α → Bool) (draw : StateM σ α) (n : Nat) (s : σ) (r : Nat) :
    (rounds inside draw n s r).source = after draw (used inside draw n s (r + 1)) s := by
  induction r with
  | zero =>
      have hused : used inside draw n s 1 = n := by simp [used, targets]
      rw [rounds_zero, hused]
  | succ r ih =>
      have hcount : (targets inside draw n s (r + 1)).length =
          (rounds inside draw n s r).values.countP fun a => !inside a := List.length_findIdxs
      rw [rounds_succ, Round.next_source, snd_redraw, ih, used_succ inside draw n s (r + 1), hcount, after_add]

/-- The numbers of a round go to its positions, in their order. -/
theorem getElem?_rounds (h : (targets inside draw n s r)[j]? = some i) :
    (rounds inside draw n s r).values[i]? = some (nth draw s (used inside draw n s r + j)) := by
  cases r with
  | zero =>
      obtain ⟨hj, rfl⟩ := List.getElem?_eq_some_iff.mp h
      have hnone : used inside draw n s 0 = 0 := rfl
      rw [targets, List.length_range] at hj
      simp [rounds_zero, hnone, targets, hj]
  | succ r => rw [rounds_succ, Round.next_values, getElem?_redraw_of_outside h, source_rounds, nth_after]

/-- What is inside stays as it is in all later rounds. -/
theorem getElem?_rounds_of_inside {r' : Nat} (hi : (rounds inside draw n s r).values[i]? = some a) (ha : inside a)
    (hle : r ≤ r') : (rounds inside draw n s r').values[i]? = some a := by
  induction hle with
  | refl => exact hi
  | step _ ih =>
      rw [rounds_succ]
      exact getElem?_redraw_of_inside ih ha

theorem mem_targets_succ : i ∈ targets inside draw n s (r + 1) ↔
    ∃ a, (rounds inside draw n s r).values[i]? = some a ∧ inside a = false := by
  rw [targets, List.mem_findIdxs_iff_exists_getElem_pos]
  constructor
  · rintro ⟨hi, hout⟩
    exact ⟨_, List.getElem?_eq_getElem hi, by simpa using hout⟩
  · rintro ⟨a, ha, hout⟩
    obtain ⟨hi, rfl⟩ := List.getElem?_eq_some_iff.mp ha
    exact ⟨hi, by simpa using hout⟩

/-- What is outside after a round was so after all rounds before. -/
theorem getElem?_rounds_of_outside {q : Nat} (hi : (rounds inside draw n s r).values[i]? = some a) (ha : inside a = false)
    (hle : q ≤ r) : ∃ b, (rounds inside draw n s q).values[i]? = some b ∧ inside b = false := by
  have hlt : i < (rounds inside draw n s q).values.length := by
    obtain ⟨hlt, _⟩ := List.getElem?_eq_some_iff.mp hi
    rwa [length_rounds] at hlt ⊢
  refine ⟨_, List.getElem?_eq_getElem hlt, Bool.eq_false_iff.mpr fun hinside => ?_⟩
  have hkept := getElem?_rounds_of_inside (List.getElem?_eq_getElem hlt) hinside hle
  rw [Option.some.inj (hkept.symm.trans hi), ha] at hinside
  contradiction

/-- What is outside after a round has got a number that is outside in this one and all rounds before. -/
theorem exists_target_of_outside {q : Nat} (hi : (rounds inside draw n s r).values[i]? = some a) (ha : inside a = false)
    (hle : q ≤ r) : ∃ j, (targets inside draw n s q)[j]? = some i ∧
      inside (nth draw s (used inside draw n s q + j)) = false := by
  have hmem : i ∈ targets inside draw n s q := by
    cases q with
    | zero =>
        obtain ⟨hlt, _⟩ := List.getElem?_eq_some_iff.mp hi
        rw [length_rounds] at hlt
        exact List.mem_range.mpr hlt
    | succ q => exact mem_targets_succ.mpr (getElem?_rounds_of_outside hi ha (Nat.le_of_lt hle))
  obtain ⟨j, hj⟩ := List.mem_iff_getElem?.mp hmem
  obtain ⟨b, hb, hout⟩ := getElem?_rounds_of_outside hi ha hle
  obtain rfl : b = _ := Option.some.inj (hb.symm.trans (getElem?_rounds hj))
  exact ⟨j, hj, hout⟩

/-- What is inside after a round is the first of the numbers drawn for its position that is. -/
theorem first_inside (hi : (rounds inside draw n s r).values[i]? = some a) (ha : inside a) :
    ∃ q j, (targets inside draw n s q)[j]? = some i ∧ a = nth draw s (used inside draw n s q + j) ∧
      ∀ q' < q, ∃ j', (targets inside draw n s q')[j']? = some i ∧
        inside (nth draw s (used inside draw n s q' + j')) = false := by
  have hlt : i < n := by
    obtain ⟨hlt, _⟩ := List.getElem?_eq_some_iff.mp hi
    rwa [length_rounds] at hlt
  induction r with
  | zero =>
      have hfirst : (targets inside draw n s 0)[i]? = some i := by simp [targets, hlt]
      exact ⟨0, i, hfirst, Option.some.inj (hi.symm.trans (getElem?_rounds hfirst)), nofun⟩
  | succ r ih =>
      obtain ⟨b, hbefore⟩ : ∃ b, (rounds inside draw n s r).values[i]? = some b :=
        ⟨_, List.getElem?_eq_getElem (by rwa [length_rounds])⟩
      cases hb : inside b with
      | true =>
          have hkept := getElem?_rounds_of_inside hbefore hb (Nat.le_succ r)
          obtain rfl : b = a := Option.some.inj (hkept.symm.trans hi)
          exact ih hbefore
      | false =>
          obtain ⟨j, hj⟩ := List.mem_iff_getElem?.mp (mem_targets_succ.mpr ⟨b, hbefore, hb⟩)
          refine ⟨r + 1, j, hj, Option.some.inj (hi.symm.trans (getElem?_rounds hj)), fun q hq => ?_⟩
          exact exists_target_of_outside hbefore hb (Nat.le_of_lt_succ hq)

/-! ## All rounds -/

namespace Round

theorem settle?_of_all (h : round.values.all inside) : settle? inside draw round = some round := by
  rw [settle?, if_pos h]

theorem settle?_of_not_all (h : ¬ round.values.all inside) :
    settle? inside draw round = settle? inside draw (round.next inside draw) := by
  rw [settle?, if_neg h]

/-- Where rounds end nothing is outside after the last one. -/
theorem settle?_eq_some (h : settle? inside draw round = some last) :
    (∃ r, (next inside draw)^[r] round = last) ∧ last.values.all inside := by
  refine settle?.partial_correctness inside draw
    (fun round last => (∃ r, (next inside draw)^[r] round = last) ∧ last.values.all inside) ?_ round last h
  intro settle ih round last hstep
  by_cases hall : round.values.all inside
  · rw [if_pos hall] at hstep
    obtain rfl := Option.some.inj hstep
    exact ⟨⟨0, rfl⟩, hall⟩
  · rw [if_neg hall] at hstep
    obtain ⟨⟨r, hr⟩, hinside⟩ := ih _ _ hstep
    exact ⟨⟨r + 1, hr⟩, hinside⟩

/-- Rounds end exactly where after one of them nothing is outside. -/
theorem isSome_settle?_iff : (settle? inside draw round).isSome ↔
    ∃ r, ((next inside draw)^[r] round).values.all inside := by
  constructor
  · intro h
    obtain ⟨last, hlast⟩ := Option.isSome_iff_exists.mp h
    obtain ⟨⟨r, rfl⟩, hall⟩ := settle?_eq_some hlast
    exact ⟨r, hall⟩
  · rintro ⟨r, hr⟩
    induction r generalizing round with
    | zero =>
        have hall : round.values.all inside := hr
        rw [settle?_of_all hall]
        rfl
    | succ r ih =>
        by_cases hall : round.values.all inside
        · rw [settle?_of_all hall]
          rfl
        · rw [settle?_of_not_all hall]
          exact ih hr

/-- Rounds end if numbers that are inside never cease. -/
theorem isSome_settle? (hoften : ∀ k, ∃ m, k ≤ m ∧ inside (nth draw round.source m)) :
    (settle? inside draw round).isSome := by
  -- On how many numbers are outside, and then on how far away the next number is that is inside.
  induction hcount : round.values.countP (fun a => !inside a) using Nat.strongRecOn generalizing round with
  | ind c ihcount =>
      obtain ⟨m, -, hm⟩ := hoften 0
      induction m using Nat.strongRecOn generalizing round with
      | ind m ihm =>
          by_cases hall : round.values.all inside
          · rw [settle?_of_all hall]
            rfl
          · have hafter : (round.next inside draw).source = after draw c round.source := by
              rw [next_source, snd_redraw, hcount]
            have hoften' : ∀ k, ∃ m, k ≤ m ∧ inside (nth draw (after draw c round.source) m) := by
              intro k
              obtain ⟨m, hm, hinside⟩ := hoften (c + k)
              refine ⟨m - c, by omega, ?_⟩
              rwa [nth_after, Nat.add_sub_cancel' (by omega)]
            rw [settle?_of_not_all hall]
            rcases Nat.lt_or_eq_of_le (countP_redraw_le inside draw round.values round.source) with hlt | heq
            · exact ihcount _ (hcount ▸ hlt) (hafter ▸ hoften') rfl
            · have hpos : 0 < c := by
                rw [← hcount, List.countP_pos_iff]
                simpa using hall
              have hnext : c ≤ m := by
                by_contra hlt
                have hout := outside_of_countP_redraw_eq heq (j := m) (by omega)
                rw [hout] at hm
                contradiction
              refine ihm (m - c) (by omega) (hafter ▸ hoften') (heq.trans hcount) ?_
              rwa [hafter, nth_after, Nat.add_sub_cancel' hnext]

end Round

end LayerStack.Draw
