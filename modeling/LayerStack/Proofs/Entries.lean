import LayerStack.Entries
import Mathlib.Data.List.Basic

/-!
# LayerStack.Proofs.Entries

Which entries there are after some were put, and in which order.

Putting values of distinct keys leaves the entries that were there in their places, each with the value put for its key,
and the new ones behind them (`putAll_eq`).  `along` lists entries in the order of some keys.  Putting all entries again,
in whatever order of the keys, changes nothing (`putAll_along`).
-/

namespace LayerStack.Entries

variable {κ β : Type} [BEq κ] [LawfulBEq κ] {entries more : Entries κ β} {key : κ} {value : β} {p : κ × β}

/-- A key is there exactly where an entry has it. -/
theorem has_iff : entries.has key ↔ ∃ v, (key, v) ∈ entries := by
  simp only [has, List.any_eq_true, beq_iff_eq]
  constructor
  · rintro ⟨⟨k, v⟩, hmem, rfl⟩
    exact ⟨v, hmem⟩
  · rintro ⟨v, hmem⟩
    exact ⟨(key, v), hmem, rfl⟩

/-- What is looked up is an entry. -/
theorem mem_of_lookup (h : entries.lookup key = some value) : (key, value) ∈ entries := by
  obtain ⟨before, after, rfl, _⟩ := List.lookup_eq_some_iff.mp h
  simp

/-- A key that is there is found. -/
theorem lookup_of_has (h : entries.has key) : ∃ v, entries.lookup key = some v := by
  obtain ⟨v, hmem⟩ := has_iff.mp h
  exact Option.isSome_iff_exists.mp (List.lookup_isSome_iff.mpr ⟨(key, v), hmem, by simp⟩)

/-! ## Putting -/

/-- Putting a value adds no other entry than the one put. -/
theorem mem_of_mem_put (h : p ∈ entries.put key value) : p ∈ entries ∨ p = (key, value) := by
  unfold put at h
  split at h
  · obtain ⟨⟨k, v⟩, hmem, rfl⟩ := List.mem_map.mp h
    by_cases hk : k = key
    · exact .inr (by simp [hk])
    · exact .inl (by simpa [hk] using hmem)
  · rcases List.mem_append.mp h with hmem | hmem
    · exact .inl hmem
    · exact .inr (List.mem_singleton.mp hmem)

omit [LawfulBEq κ] in
/-- A value put for a key that is there replaces the one that was. -/
theorem put_of_has (h : entries.has key) :
    entries.put key value = entries.map fun p => (p.1, if p.1 == key then value else p.2) := if_pos h

omit [LawfulBEq κ] in
/-- A value put for a key that is not there comes last. -/
theorem put_of_not_has (h : ¬ entries.has key) : entries.put key value = entries ++ [(key, value)] := if_neg h

omit [LawfulBEq κ] in
/-- Which keys there are then does not depend on the value. -/
theorem keys_put (entries : Entries κ β) (key : κ) (value other : β) :
    (entries.put key value).map (·.1) = (entries.put key other).map (·.1) := by
  by_cases hkey : entries.has key
  · rw [put_of_has hkey, put_of_has hkey]
    simp [Function.comp_def]
  · rw [put_of_not_has hkey, put_of_not_has hkey]
    simp

/-- The only entry of a key is replaced in its place. -/
theorem put_between {before after : Entries κ β} (value other : β) (hbefore : key ∉ before.map (·.1))
    (hafter : key ∉ after.map (·.1)) :
    (before ++ (key, value) :: after).put key other = before ++ (key, other) :: after := by
  have hkept {part : Entries κ β} (hpart : key ∉ part.map (·.1)) :
      part.map (fun p => (p.1, if p.1 == key then other else p.2)) = part := by
    conv => rhs; rw [← List.map_id part]
    refine List.map_congr_left fun p hp => ?_
    have hne : (p.1 == key) = false := by
      rw [beq_eq_false_iff_ne]
      rintro rfl
      exact hpart (List.mem_map.mpr ⟨p, hp, rfl⟩)
    simp [hne]
  have hhas : Entries.has (before ++ (key, value) :: after) key := has_iff.mpr ⟨value, by simp⟩
  rw [put_of_has hhas, List.map_append, List.map_cons, hkept hbefore, hkept hafter]
  simp

/-- After putting a value its key is there, and so are the keys that were. -/
theorem has_put {k : κ} : (entries.put key value).has k ↔ entries.has k ∨ k = key := by
  by_cases hkey : entries.has key
  · have hsame : (entries.put key value).has k = entries.has k := by
      rw [put_of_has hkey]
      simp only [has, List.any_map, Function.comp_def]
    rw [hsame]
    constructor
    · exact .inl
    · rintro (h | rfl)
      · exact h
      · exact hkey
  · rw [put_of_not_has hkey]
    simp only [has, List.any_append, List.any_cons, List.any_nil, Bool.or_false, Bool.or_eq_true, beq_iff_eq,
      @eq_comm _ k]

/-- Putting values adds no other entries than those put. -/
theorem mem_of_mem_putAll (h : p ∈ entries.putAll more) : p ∈ entries ∨ p ∈ more := by
  induction more generalizing entries with
  | nil => exact .inl h
  | cons q more ih =>
      rcases ih h with hput | hmore
      · rcases mem_of_mem_put hput with hmem | rfl
        · exact .inl hmem
        · exact .inr List.mem_cons_self
      · exact .inr (List.mem_cons_of_mem _ hmore)

/-- After putting values the keys are those that were there and those put. -/
theorem has_putAll {k : κ} : (entries.putAll more).has k ↔ entries.has k ∨ more.has k := by
  induction more generalizing entries with
  | nil => simp [putAll, has]
  | cons q more ih =>
      have step : entries.putAll (q :: more) = (entries.put q.1 q.2).putAll more := rfl
      rw [step, ih, has_put, or_assoc]
      simp only [has, List.any_cons, Bool.or_eq_true, beq_iff_eq, @eq_comm _ k]

/-! ## Looking up -/

variable {k : κ}

theorem has_iff_mem_keys : entries.has key ↔ key ∈ entries.map (·.1) := by
  rw [has_iff]
  simp

/-- A key that is not there is not found. -/
theorem lookup_eq_none (h : key ∉ entries.map (·.1)) : entries.lookup key = none := by
  rw [List.lookup_eq_none_iff]
  intro p hp
  rw [bne_iff_ne]
  rintro rfl
  exact h (List.mem_map.mpr ⟨p, hp, rfl⟩)

/-- Of distinct keys each entry is the one that is found. -/
theorem lookup_of_mem (h : (entries.map (·.1)).Nodup) (hmem : (key, value) ∈ entries) : entries.lookup key = some value := by
  induction entries with
  | nil => simp at hmem
  | cons entry entries ih =>
      obtain ⟨hhead, htail⟩ := List.nodup_cons.mp h
      rcases List.mem_cons.mp hmem with rfl | hmem
      · simp
      · have hne : (key == entry.1) = false := by
          rw [beq_eq_false_iff_ne]
          rintro rfl
          exact hhead (List.mem_map.mpr ⟨_, hmem, rfl⟩)
        rw [List.lookup_cons, hne]
        exact ih htail hmem

/-- Of distinct keys it does not matter in which order they stand. -/
theorem lookup_eq_of_perm {entries' : Entries κ β} (h : (entries.map (·.1)).Nodup) (hperm : entries.Perm entries') :
    entries.lookup key = entries'.lookup key := by
  have hkeys : (entries.map (·.1)).Perm (entries'.map (·.1)) := hperm.map _
  by_cases hkey : key ∈ entries.map (·.1)
  · obtain ⟨⟨_, value⟩, hmem, rfl⟩ := List.mem_map.mp hkey
    rw [lookup_of_mem h hmem, lookup_of_mem (hkeys.nodup_iff.mp h) (hperm.mem_iff.mp hmem)]
  · rw [lookup_eq_none hkey, lookup_eq_none (mt hkeys.mem_iff.mpr hkey)]

/-- What is looked up after putting a value is that value, or what was there. -/
theorem lookup_put : (entries.put key value).lookup k = if k == key then some value else entries.lookup k := by
  have hreplaced : (entries.map fun p => (p.1, if p.1 == key then value else p.2)).lookup k =
      (entries.lookup k).map fun v => if k == key then value else v := by
    induction entries with
    | nil => rfl
    | cons entry entries ih =>
        obtain ⟨k', v⟩ := entry
        by_cases hk : k = k'
        · subst hk
          simp
        · have hne : (k == k') = false := by simpa using hk
          simp only [List.map_cons, List.lookup_cons, hne]
          exact ih
  by_cases hkey : entries.has key
  · rw [put_of_has hkey, hreplaced]
    by_cases hk : k = key
    · subst hk
      obtain ⟨v, hv⟩ := lookup_of_has hkey
      simp [hv]
    · simp [hk]
  · rw [put_of_not_has hkey, List.lookup_append]
    by_cases hk : k = key
    · subst hk
      simp [lookup_eq_none (mt has_iff_mem_keys.mpr hkey)]
    · have hne : (k == key) = false := by simpa using hk
      simp [hne, List.lookup_cons]

/-- What is looked up after putting values of distinct keys is the one put, or what was there. -/
theorem lookup_putAll (h : (more.map (·.1)).Nodup) :
    (entries.putAll more).lookup k = (more.lookup k).or (entries.lookup k) := by
  induction more generalizing entries with
  | nil => rfl
  | cons entry more ih =>
      obtain ⟨key, value⟩ := entry
      obtain ⟨hhead, htail⟩ := List.nodup_cons.mp h
      have step : entries.putAll ((key, value) :: more) = (entries.put key value).putAll more := rfl
      rw [step, ih htail, lookup_put, List.lookup_cons]
      by_cases hk : k = key
      · subst hk
        simp [lookup_eq_none hhead]
      · have hne : (k == key) = false := by simpa using hk
        simp [hne]

omit [LawfulBEq κ] in
/-- Values that are mapped are found mapped. -/
theorem lookup_map_values {γ : Type} (entries : Entries κ β) (f : β → γ) :
    (entries.map fun p => (p.1, f p.2)).lookup k = (entries.lookup k).map f := by
  induction entries with
  | nil => rfl
  | cons entry entries ih =>
      rw [List.map_cons, List.lookup_cons, List.lookup_cons]
      cases k == entry.1 with
      | true => rfl
      | false => exact ih

omit [LawfulBEq κ] in
/-- Keys that are renamed, each differently, find what they did. -/
theorem lookup_map_keys {κ' : Type} [BEq κ'] {f : κ → κ'} (hf : ∀ a b, (f a == f b) = (a == b)) (entries : Entries κ β) :
    (entries.map fun p => (f p.1, p.2)).lookup (f k) = entries.lookup k := by
  induction entries with
  | nil => rfl
  | cons entry entries ih =>
      rw [List.map_cons, List.lookup_cons, List.lookup_cons, hf]
      cases k == entry.1 with
      | true => rfl
      | false => exact ih

/-! ## In order -/

/-- Putting values of distinct keys leaves the other entries in their places and puts the new ones behind them. -/
theorem putAll_eq (h : (more.map (·.1)).Nodup) :
    entries.putAll more =
      entries.map (fun p => (p.1, (more.lookup p.1).getD p.2)) ++ more.filter fun p => !entries.has p.1 := by
  induction more generalizing entries with
  | nil => simp [putAll]
  | cons entry more ih =>
      obtain ⟨key, value⟩ := entry
      obtain ⟨hhead, htail⟩ := List.nodup_cons.mp h
      have hnone : more.lookup key = none := lookup_eq_none hhead
      have step : entries.putAll ((key, value) :: more) = (entries.put key value).putAll more := rfl
      have hnew : (more.filter fun p => !(entries.put key value).has p.1) = more.filter fun p => !entries.has p.1 := by
        refine List.filter_congr fun p hp => ?_
        have hne : p.1 ≠ key := by
          rintro rfl
          exact hhead (List.mem_map.mpr ⟨p, hp, rfl⟩)
        have hsame : (entries.put key value).has p.1 = entries.has p.1 := by
          rw [Bool.eq_iff_iff, has_put]
          simp [hne]
        rw [hsame]
      rw [step, ih htail, hnew]
      by_cases hkey : entries.has key
      · rw [put_of_has hkey, List.map_map, List.filter_cons_of_neg (by simp [hkey])]
        congr 1
        refine List.map_congr_left fun p _ => ?_
        obtain ⟨k, v⟩ := p
        by_cases hk : k = key
        · subst hk
          simp [hnone]
        · have hne : (k == key) = false := by simpa using hk
          simp [hne, List.lookup_cons]
      · rw [put_of_not_has hkey, List.map_append, List.filter_cons_of_pos (by simp [hkey]), List.append_assoc]
        congr 1
        · refine List.map_congr_left fun p hmem => ?_
          obtain ⟨k, v⟩ := p
          have hne : (k == key) = false := by
            rw [beq_eq_false_iff_ne]
            rintro rfl
            exact hkey (has_iff.mpr ⟨v, hmem⟩)
          simp [hne, List.lookup_cons]
        · simp [hnone]

omit [LawfulBEq κ] in
/-- The entries of some keys, in the order of the keys. -/
def along (entries : Entries κ β) (keys : List κ) : Entries κ β :=
  keys.filterMap fun key => (entries.lookup key).map (key, ·)

variable {keys : List κ}

omit [LawfulBEq κ] in
theorem along_cons (entries : Entries κ β) (key : κ) (keys : List κ) :
    entries.along (key :: keys) = ((entries.lookup key).map (key, ·)).toList ++ entries.along keys := by
  rw [along, List.filterMap_cons]
  cases entries.lookup key <;> rfl

omit [LawfulBEq κ] in
theorem keys_along (entries : Entries κ β) (keys : List κ) : ((entries.along keys).map (·.1)).Sublist keys := by
  induction keys with
  | nil => exact List.nil_sublist _
  | cons key keys ih =>
      rw [along_cons]
      cases entries.lookup key with
      | none => exact ih.cons key
      | some v => exact ih.cons_cons key

theorem lookup_along (h : key ∈ keys) : (entries.along keys).lookup key = entries.lookup key := by
  induction keys with
  | nil => simp at h
  | cons key' keys ih =>
      rw [along_cons]
      by_cases hk : key = key'
      · subst hk
        cases hv : entries.lookup key with
        | some v => simp
        | none =>
            by_cases hmem : key ∈ keys
            · exact (ih hmem).trans hv
            · exact lookup_eq_none fun hkey => hmem ((keys_along entries keys).subset hkey)
      · have hmem : key ∈ keys := (List.mem_cons.mp h).resolve_left hk
        have hne : (key == key') = false := by simpa using hk
        cases entries.lookup key' with
        | none => exact ih hmem
        | some v =>
            simp only [Option.map_some, Option.toList_some, List.singleton_append, List.lookup_cons, hne]
            exact ih hmem

omit [LawfulBEq κ] in
/-- What stands under some keys is all that hangs on the entries. -/
theorem along_congr {entries' : Entries κ β} (h : ∀ k ∈ keys, entries.lookup k = entries'.lookup k) :
    entries.along keys = entries'.along keys :=
  List.filterMap_congr fun k hk => by rw [h k hk]

/-- Entries whose keys stand in the order of some keys are listed as they are. -/
theorem along_eq_self (h : (entries.map (·.1)).Sublist keys) (hkeys : keys.Nodup) : entries.along keys = entries := by
  induction keys generalizing entries with
  | nil =>
      rw [List.map_eq_nil_iff.mp (List.sublist_nil.mp h)]
      rfl
  | cons key keys ih =>
      obtain ⟨hkey, hrest⟩ := List.nodup_cons.mp hkeys
      rw [along_cons]
      rcases List.sublist_cons_iff.mp h with hskip | ⟨tail, htail, hsub⟩
      · rw [lookup_eq_none fun hmem => hkey (hskip.subset hmem)]
        exact ih hskip hrest
      · cases entries with
        | nil => simp at htail
        | cons entry entries =>
            obtain ⟨rfl, rfl⟩ := List.cons.inj htail
            have hrest' : Entries.along (entry :: entries) keys = Entries.along entries keys := by
              refine along_congr fun k hk => ?_
              have hne : (k == entry.1) = false := by
                rw [beq_eq_false_iff_ne]
                rintro rfl
                exact hkey hk
              rw [List.lookup_cons, hne]
            rw [hrest', ih hsub hrest, List.lookup_cons_self]
            rfl

omit [LawfulBEq κ] in
theorem filter_along (entries : Entries κ β) (keys : List κ) (keep : κ → Bool) :
    (entries.along keys).filter (fun p => keep p.1) = entries.along (keys.filter keep) := by
  induction keys with
  | nil => rfl
  | cons key keys ih =>
      rw [along_cons, List.filter_append, ih, List.filter_cons]
      cases hkeep : keep key with
      | true =>
          rw [if_pos rfl, along_cons]
          cases entries.lookup key <;> simp [hkeep]
      | false => cases entries.lookup key <;> simp [hkeep]

/-- Entries that were put under others, listed in an order of the keys that the ones put kept, can be put again. -/
theorem putAll_along (hentries : (entries.map (·.1)).Nodup) (hknown : ∀ k ∈ entries.map (·.1), k ∈ keys)
    (hmore : (more.map (·.1)).Sublist keys) (hkeys : keys.Nodup) :
    entries.putAll ((entries.putAll more).along keys) = entries.putAll more := by
  have hnodup : (more.map (·.1)).Nodup := hkeys.sublist hmore
  have hnodup' : (((entries.putAll more).along keys).map (·.1)).Nodup := hkeys.sublist (keys_along _ _)
  have hold : entries.map (fun p => (p.1, (((entries.putAll more).along keys).lookup p.1).getD p.2)) =
      entries.map fun p => (p.1, (more.lookup p.1).getD p.2) := by
    refine List.map_congr_left fun (k, v) hmem => ?_
    have hk : k ∈ keys := hknown k (List.mem_map.mpr ⟨_, hmem, rfl⟩)
    rw [lookup_along hk, lookup_putAll hnodup, lookup_of_mem hentries hmem]
    cases more.lookup k <;> rfl
  have hnew : ((entries.putAll more).along keys).filter (fun p => !entries.has p.1) =
      more.filter fun p => !entries.has p.1 := by
    rw [filter_along _ _ fun k => !entries.has k]
    conv => rhs; rw [← along_eq_self hmore hkeys, filter_along _ _ fun k => !entries.has k]
    refine along_congr fun k hk => ?_
    have hnone : entries.lookup k = none := by
      have hnew : ¬ entries.has k := by simpa using (List.mem_filter.mp hk).2
      exact lookup_eq_none (mt has_iff_mem_keys.mpr hnew)
    rw [lookup_putAll hnodup, hnone, Option.or_none]
  rw [putAll_eq hnodup', hold, hnew, ← putAll_eq hnodup]

end LayerStack.Entries
