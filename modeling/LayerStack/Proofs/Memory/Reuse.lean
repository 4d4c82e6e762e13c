import LayerStack.Proofs.Entries
import LayerStack.Proofs.Memory
import Mathlib.Data.List.Induction
import Mathlib.Data.List.Nodup
import Mathlib.Data.List.ReduceOption

/-!
# LayerStack.Proofs.Memory.Reuse

A tracker of objects whose identities are used again.

An object has an identity that no other object alive has.  Once the object is collected another one may have it, and
finalizers that tracking left behind know no more than the identity.  What keeps objects apart is that a collection runs
all finalizers registered for its object, so those left belong to objects that are alive, and forget their identities
(`Sound.pending`).  Then the tracker has an entry for just the living objects that own something, of what each was last
tracked with (`Sound.mem_held`), whatever happened to the others (`reuse_keeps_apart`).
-/

namespace LayerStack

/-- An object that may own tensors.  Objects are numbered as they are created, so each number stands for one object. -/
abbrev Owner := Nat

/-- Objects, and a tracker of what they own. -/
structure Owners where
  /-- How many objects were created. -/
  created : Nat := 0
  /-- The objects that are alive, each with its identity. -/
  alive : List (Owner × Identity) := []
  /-- The finalizers registered for objects, each with the identity it forgets. -/
  finalizers : List (Owner × Identity) := []
  tracker : MemoryTracker := {}

namespace Owners

/-! ## What happens -/

/-- What can happen to objects. -/
inductive Event where
  | create (id : Identity)
  | track (o : Owner) (tensors : List (Option Dims))
  | release (o : Owner)
  | collect (o : Owner)

namespace Event

/-- The object that an event happens to, if there was one before. -/
def owner? : Event → Option Owner
  | create _ => none
  | track o _ | release o | collect o => some o

/-- Is an object tracked or released by an event? -/
def resets (o : Owner) : Event → Bool
  | track o' _ | release o' => o' == o
  | create _ | collect _ => false

/-- The tensors that an event tracks. -/
def tensors? : Event → Option (List (Option Dims))
  | track _ tensors => some tensors
  | create _ | release _ | collect _ => none

end Event

/-- Objects after one more event, if it can happen: a new object has an identity that none alive has, and anything else
happens to an object that is alive.  A collection runs the finalizers registered for its object. -/
def step? (w : Owners) : Event → Option Owners
  | .create id =>
    if w.alive.any (·.2 == id) then none
    else some { w with created := w.created + 1, alive := (w.created, id) :: w.alive }
  | .track o tensors => (w.alive.lookup o).map fun id =>
    { w with finalizers := (o, id) :: w.finalizers, tracker := w.tracker.track id tensors }
  | .release o => (w.alive.lookup o).map fun id => { w with tracker := (w.tracker.release id).2 }
  | .collect o => (w.alive.lookup o).map fun _ =>
    let others := w.finalizers.filter (·.1 != o)
    let run := (w.finalizers.filter (·.1 == o)).foldl (fun tracker f => tracker.forget f.2) w.tracker
    { w with alive := w.alive.filter (·.1 != o), finalizers := others
             tracker := { run with finalizers := others.map (·.2) } }

/-- Objects after some events, if those can happen one after the other. -/
def run? (events : List Event) : Option Owners := events.foldlM step? {}

/-- What an object was tracked with if it was not released since. -/
def lastTrack? (o : Owner) (events : List Event) : Option (List (Option Dims)) :=
  (events.reverse.find? (·.resets o)).bind Event.tensors?

/-- The tensors of an object that were there when it was last tracked; none if it was released since. -/
def owned (o : Owner) (events : List Event) : List Dims := ((lastTrack? o events).getD []).reduceOption

/-! ## What was tracked last -/

variable {w w' : Owners} {events more : List Event} {e : Event} {o : Owner} {id : Identity}

theorem lastTrack?_concat (o : Owner) (events : List Event) (e : Event) :
    lastTrack? o (events ++ [e]) = if e.resets o then e.tensors? else lastTrack? o events := by
  rw [lastTrack?, List.reverse_append, List.reverse_singleton, List.singleton_append, List.find?_cons]
  cases e.resets o <;> rfl

theorem lastTrack?_concat_of_not_resets (h : e.resets o = false) :
    lastTrack? o (events ++ [e]) = lastTrack? o events := by
  rw [lastTrack?_concat, h]
  rfl

theorem lastTrack?_track (o o' : Owner) (tensors : List (Option Dims)) (events : List Event) :
    lastTrack? o' (events ++ [.track o tensors]) = if o = o' then some tensors else lastTrack? o' events := by
  simp [lastTrack?_concat, Event.resets, Event.tensors?]

theorem lastTrack?_release (o o' : Owner) (events : List Event) :
    lastTrack? o' (events ++ [.release o]) = if o = o' then none else lastTrack? o' events := by
  simp [lastTrack?_concat, Event.resets, Event.tensors?]

/-- An object was tracked last with some tensors where no event after that tracks or releases it. -/
theorem lastTrack?_eq_some_iff {tensors : List (Option Dims)} : lastTrack? o events = some tensors ↔
    ∃ past since, events = past ++ .track o tensors :: since ∧ ∀ e ∈ since, e.resets o = false := by
  rw [lastTrack?, Option.bind_eq_some_iff]
  constructor
  · rintro ⟨e, hfind, htensors⟩
    obtain ⟨hresets, since, past, hevents, hsince⟩ := List.find?_eq_some_iff_append.mp hfind
    refine ⟨past.reverse, since.reverse, ?_, fun e he => by simpa using hsince e (List.mem_reverse.mp he)⟩
    cases e with
    | track o' tensors' =>
        obtain rfl : o' = o := beq_iff_eq.mp hresets
        obtain rfl : tensors' = tensors := Option.some.inj htensors
        rw [← List.reverse_reverse events, hevents]
        simp
    | create | release | collect => contradiction
  · rintro ⟨past, since, rfl, hsince⟩
    refine ⟨.track o tensors, List.find?_eq_some_iff_append.mpr ⟨beq_self_eq_true o, ?_⟩, rfl⟩
    refine ⟨since.reverse, past.reverse, ?_, ?_⟩
    · simp
    · intro e he
      simpa using hsince e (List.mem_reverse.mp he)

/-- Something was tracked last just if an object was tracked and not released since. -/
theorem isSome_lastTrack?_iff : (lastTrack? o events).isSome ↔
    ∃ past tensors since, events = past ++ .track o tensors :: since ∧ .release o ∉ since := by
  constructor
  · intro h
    obtain ⟨tensors, htensors⟩ := Option.isSome_iff_exists.mp h
    obtain ⟨past, since, hevents, hsince⟩ := lastTrack?_eq_some_iff.mp htensors
    refine ⟨past, tensors, since, hevents, fun hmem => ?_⟩
    simpa [Event.resets] using hsince _ hmem
  · rintro ⟨past, tensors, since, rfl, hsince⟩
    induction since using List.reverseRecOn with
    | nil => simp [lastTrack?_track]
    | append_singleton since e ih =>
        rw [List.mem_append, List.mem_singleton, not_or] at hsince
        obtain ⟨hsince, hlast⟩ := hsince
        rw [← List.cons_append, ← List.append_assoc]
        cases e with
        | track o' tensors' =>
            rw [lastTrack?_track]
            split
            · rfl
            · exact ih hsince
        | release o' =>
            rw [lastTrack?_release, if_neg fun heq => hlast (by rw [heq])]
            exact ih hsince
        | create | collect =>
            rw [lastTrack?_concat_of_not_resets rfl]
            exact ih hsince

/-! ## Steps -/

/-- What an event can come to. -/
inductive Step (w : Owners) : Event → Owners → Prop
  | create {id : Identity} (hnew : ∀ p ∈ w.alive, p.2 ≠ id) :
    Step w (.create id) { w with created := w.created + 1, alive := (w.created, id) :: w.alive }
  | track {o : Owner} {id : Identity} (halive : (o, id) ∈ w.alive) (tensors : List (Option Dims)) :
    Step w (.track o tensors)
      { w with finalizers := (o, id) :: w.finalizers, tracker := w.tracker.track id tensors }
  | release {o : Owner} {id : Identity} (halive : (o, id) ∈ w.alive) :
    Step w (.release o) { w with tracker := w.tracker.forget id }
  | collect {o : Owner} {id : Identity} (halive : (o, id) ∈ w.alive) :
    Step w (.collect o)
      { w with
        alive := w.alive.filter (·.1 != o), finalizers := w.finalizers.filter (·.1 != o)
        tracker := {
          (w.finalizers.filter (·.1 == o)).foldl (fun tracker f => tracker.forget f.2) w.tracker with
          finalizers := (w.finalizers.filter (·.1 != o)).map (·.2) } }

theorem step_of_eq (h : w.step? e = some w') : Step w e w' := by
  cases e with
  | create id =>
      rw [step?] at h
      split at h
      · contradiction
      · next hnew =>
          obtain rfl := Option.some.inj h
          refine .create fun p hp heq => hnew ?_
          exact List.any_eq_true.mpr ⟨p, hp, beq_iff_eq.mpr heq⟩
  | track o tensors =>
      obtain ⟨id, hid, rfl⟩ := Option.map_eq_some_iff.mp h
      exact .track (Entries.mem_of_lookup hid) tensors
  | release o =>
      obtain ⟨id, hid, rfl⟩ := Option.map_eq_some_iff.mp h
      exact .release (Entries.mem_of_lookup hid)
  | collect o =>
      obtain ⟨id, hid, rfl⟩ := Option.map_eq_some_iff.mp h
      exact .collect (Entries.mem_of_lookup hid)

theorem run?_concat (events : List Event) (e : Event) : run? (events ++ [e]) = (run? events).bind (step? · e) := by
  simp [run?, List.foldlM_append]

/-! ## What is kept -/

/-- What is so of objects after some events. -/
structure Sound (events : List Event) (w : Owners) : Prop where
  owners : (w.alive.map (·.1)).Nodup
  identities : (w.alive.map (·.2)).Nodup
  known : ∀ p ∈ w.alive, p.1 < w.created
  /-- Nothing has happened to an object that was not created yet. -/
  unborn : ∀ o, w.created ≤ o → lastTrack? o events = none
  /-- The finalizers left are those of objects that are alive, and forget their identities. -/
  pending : ∀ f ∈ w.finalizers, f ∈ w.alive
  registered : w.tracker.finalizers = w.finalizers.map (·.2)
  watched : w.tracker.Watched
  nodup : (w.tracker.held.map (·.1)).Nodup
  /-- There is an entry for just the living objects that own something. -/
  mem_held : ∀ id tensors, (id, tensors) ∈ w.tracker.held ↔
    ∃ o given, (o, id) ∈ w.alive ∧ lastTrack? o events = some given ∧ tensors = given.reduceOption

theorem sound_start : Sound [] {} where
  owners := List.nodup_nil
  identities := List.nodup_nil
  known := by simp
  unborn := fun _ _ => rfl
  pending := by simp
  registered := rfl
  watched := MemoryTracker.watched_new
  nodup := List.nodup_nil
  mem_held := by simp

namespace Sound

/-- An object has one identity. -/
theorem identity_unique (h : Sound events w) {id' : Identity} (hid : (o, id) ∈ w.alive) (hid' : (o, id') ∈ w.alive) :
    id = id' :=
  congrArg Prod.snd (List.inj_on_of_nodup_map h.owners hid hid' rfl)

/-- An identity has one object. -/
theorem owner_unique (h : Sound events w) {o' : Owner} (ho : (o, id) ∈ w.alive) (ho' : (o', id) ∈ w.alive) : o = o' :=
  congrArg Prod.fst (List.inj_on_of_nodup_map h.identities ho ho' rfl)

/-- Without the entry of an identity there are those of all other objects. -/
theorem mem_filter_held (h : Sound events w) (halive : (o, id) ∈ w.alive) (i : Identity) (tensors : List Dims) :
    (i, tensors) ∈ w.tracker.held.filter (·.1 != id) ↔
      ∃ o' given, (o', i) ∈ w.alive ∧ o' ≠ o ∧ lastTrack? o' events = some given ∧ tensors = given.reduceOption := by
  rw [List.mem_filter, h.mem_held, bne_iff_ne]
  constructor
  · rintro ⟨⟨o', given, ho', hlast, htensors⟩, hi⟩
    refine ⟨o', given, ho', ?_, hlast, htensors⟩
    rintro rfl
    exact hi (h.identity_unique ho' halive)
  · rintro ⟨o', given, ho', hne, hlast, htensors⟩
    refine ⟨⟨o', given, ho', hlast, htensors⟩, ?_⟩
    rintro rfl
    exact hne (h.owner_unique ho' halive)

theorem nodup_filter_held (h : Sound events w) (id : Identity) :
    ((w.tracker.held.filter (·.1 != id)).map (·.1)).Nodup :=
  h.nodup.sublist (List.filter_sublist.map _)

/-- A finalizer left forgets the identity of an object just if it is registered for that object. -/
theorem finalizer_iff (h : Sound events w) (halive : (o, id) ∈ w.alive) {f : Owner × Identity} (hf : f ∈ w.finalizers) :
    f.1 = o ↔ f.2 = id := by
  have hpending : (f.1, f.2) ∈ w.alive := h.pending f hf
  constructor
  · intro ho
    rw [ho] at hpending
    exact h.identity_unique hpending halive
  · intro hid
    rw [hid] at hpending
    exact h.owner_unique hpending halive

/-- Running the finalizers registered for an object comes to the same as running those that forget its identity. -/
theorem tracker_collect (h : Sound events w) (halive : (o, id) ∈ w.alive) :
    { (w.finalizers.filter (·.1 == o)).foldl (fun tracker f => tracker.forget f.2) w.tracker with
      finalizers := (w.finalizers.filter (·.1 != o)).map (·.2) } = w.tracker.collect id := by
  have hrun : (w.finalizers.filter (·.1 == o)).foldl (fun tracker f => tracker.forget f.2) w.tracker =
      w.tracker.finalizers.foldl (fun m i => if i = id then m.forget i else m) w.tracker := by
    rw [h.registered, List.foldl_map, List.foldl_filter]
    refine List.foldl_ext _ _ _ fun tracker f hf => ?_
    by_cases ho : f.1 = o
    · have hid := (h.finalizer_iff halive hf).mp ho
      simp [ho, hid]
    · have hid := mt (h.finalizer_iff halive hf).mpr ho
      simp [ho, hid]
  have hothers : (w.finalizers.filter (·.1 != o)).map (·.2) = w.tracker.finalizers.filter (· != id) := by
    rw [h.registered, List.filter_map]
    refine congrArg (List.map _) (List.filter_congr fun f hf => ?_)
    rw [Function.comp_apply, Bool.eq_iff_iff, bne_iff_ne, bne_iff_ne]
    exact not_congr (h.finalizer_iff halive hf)
  rw [hrun, hothers]
  rfl

theorem create (h : Sound events w) (hnew : ∀ p ∈ w.alive, p.2 ≠ id) : Sound (events ++ [.create id])
    { w with created := w.created + 1, alive := (w.created, id) :: w.alive } where
  owners := by
    refine List.nodup_cons.mpr ⟨fun hmem => ?_, h.owners⟩
    obtain ⟨p, hp, hcreated⟩ := List.mem_map.mp hmem
    exact absurd (h.known p hp) (by rw [hcreated]; exact Nat.lt_irrefl _)
  identities := by
    refine List.nodup_cons.mpr ⟨fun hmem => ?_, h.identities⟩
    obtain ⟨p, hp, hid⟩ := List.mem_map.mp hmem
    exact hnew p hp hid
  known := by
    intro p hp
    rcases List.mem_cons.mp hp with rfl | hp
    · exact Nat.lt_succ_self _
    · exact Nat.lt_succ_of_lt (h.known p hp)
  unborn := by
    intro o ho
    rw [lastTrack?_concat_of_not_resets rfl]
    exact h.unborn o (Nat.le_of_succ_le ho)
  pending := fun f hf => List.mem_cons_of_mem _ (h.pending f hf)
  registered := h.registered
  watched := h.watched
  nodup := h.nodup
  mem_held := by
    intro i tensors
    rw [h.mem_held]
    refine exists_congr fun o => exists_congr fun given => ?_
    rw [lastTrack?_concat_of_not_resets rfl, List.mem_cons]
    constructor
    · rintro ⟨ho, hgiven⟩
      exact ⟨.inr ho, hgiven⟩
    · rintro ⟨hnewest | ho, hlast, htensors⟩
      · -- The new object owns nothing, as it was never tracked.
        obtain ⟨rfl, rfl⟩ := Prod.mk.inj hnewest
        rw [h.unborn _ (Nat.le_refl _)] at hlast
        contradiction
      · exact ⟨ho, hlast, htensors⟩

theorem track (h : Sound events w) (halive : (o, id) ∈ w.alive) (tensors : List (Option Dims)) :
    Sound (events ++ [.track o tensors])
      { w with finalizers := (o, id) :: w.finalizers, tracker := w.tracker.track id tensors } where
  owners := h.owners
  identities := h.identities
  known := h.known
  unborn := by
    intro o' ho'
    have hne : o ≠ o' := Nat.ne_of_lt (Nat.lt_of_lt_of_le (h.known _ halive) ho')
    rw [lastTrack?_track, if_neg hne]
    exact h.unborn o' ho'
  pending := by
    intro f hf
    rcases List.mem_cons.mp hf with rfl | hf
    · exact halive
    · exact h.pending f hf
  registered := congrArg (id :: ·) h.registered
  watched := h.watched.track id tensors
  nodup := by
    have hkeys : (w.tracker.track id tensors).held.map (·.1) = (w.tracker.held.filter (·.1 != id)).map (·.1) ++ [id] :=
      List.map_append
    rw [hkeys]
    refine List.Nodup.append (h.nodup_filter_held id) (List.nodup_singleton id) ?_
    rw [List.disjoint_singleton]
    intro hmem
    obtain ⟨p, hp, hid⟩ := List.mem_map.mp hmem
    exact bne_iff_ne.mp (List.mem_filter.mp hp).2 hid
  mem_held := by
    intro i ts
    have hheld : (i, ts) ∈ (w.tracker.track id tensors).held ↔
        (i, ts) ∈ w.tracker.held.filter (·.1 != id) ∨ (i, ts) = (id, tensors.reduceOption) := by
      rw [← List.mem_singleton, ← List.mem_append]
      rfl
    rw [hheld, h.mem_filter_held halive]
    constructor
    · rintro (⟨o', given, ho', hne, hlast, rfl⟩ | heq)
      · exact ⟨o', given, ho', by rwa [lastTrack?_track, if_neg hne.symm], rfl⟩
      · obtain ⟨rfl, rfl⟩ := Prod.mk.inj heq
        exact ⟨o, tensors, halive, by rw [lastTrack?_track, if_pos rfl], rfl⟩
    · rintro ⟨o', given, ho', hlast, rfl⟩
      rw [lastTrack?_track] at hlast
      split at hlast
      · next heq =>
          obtain rfl := heq
          obtain rfl := Option.some.inj hlast
          exact .inr (by rw [h.identity_unique ho' halive])
      · next hne => exact .inl ⟨o', given, ho', Ne.symm hne, hlast, rfl⟩

theorem release (h : Sound events w) (halive : (o, id) ∈ w.alive) :
    Sound (events ++ [.release o]) { w with tracker := w.tracker.forget id } where
  owners := h.owners
  identities := h.identities
  known := h.known
  unborn := by
    intro o' ho'
    rw [lastTrack?_release, h.unborn o' ho', ite_self]
  pending := h.pending
  registered := h.registered
  watched := h.watched.forget id
  nodup := h.nodup_filter_held id
  mem_held := by
    intro i ts
    refine (h.mem_filter_held halive i ts).trans (exists_congr fun o' => exists_congr fun given => ?_)
    rw [lastTrack?_release]
    by_cases heq : o = o'
    · simp [heq]
    · simp [heq, Ne.symm heq]

theorem collect (h : Sound events w) (halive : (o, id) ∈ w.alive) :
    Sound (events ++ [.collect o])
      { w with
        alive := w.alive.filter (·.1 != o), finalizers := w.finalizers.filter (·.1 != o)
        tracker := w.tracker.collect id } where
  owners := h.owners.sublist (List.filter_sublist.map _)
  identities := h.identities.sublist (List.filter_sublist.map _)
  known := fun p hp => h.known p (List.mem_of_mem_filter hp)
  unborn := by
    intro o' ho'
    rw [lastTrack?_concat_of_not_resets rfl]
    exact h.unborn o' ho'
  pending := by
    intro f hf
    obtain ⟨hf, hne⟩ := List.mem_filter.mp hf
    exact List.mem_filter.mpr ⟨h.pending f hf, hne⟩
  registered := by
    rw [← h.tracker_collect halive]
  watched := h.watched.collect id
  nodup := by
    rw [MemoryTracker.held_collect h.watched]
    exact h.nodup_filter_held id
  mem_held := by
    intro i ts
    rw [MemoryTracker.held_collect h.watched, h.mem_filter_held halive]
    refine exists_congr fun o' => exists_congr fun given => ?_
    rw [lastTrack?_concat_of_not_resets rfl, List.mem_filter, bne_iff_ne, and_assoc]

theorem step (h : Sound events w) (hstep : Step w e w') : Sound (events ++ [e]) w' := by
  cases hstep with
  | create hnew => exact h.create hnew
  | track halive tensors => exact h.track halive tensors
  | release halive => exact h.release halive
  | collect halive =>
      rw [h.tracker_collect halive]
      exact h.collect halive

end Sound

theorem sound_of_run (h : run? events = some w) : Sound events w := by
  induction events using List.reverseRecOn generalizing w with
  | nil =>
      obtain rfl := Option.some.inj h
      exact sound_start
  | append_singleton events e ih =>
      rw [run?_concat] at h
      obtain ⟨before, hbefore, hstep⟩ := Option.bind_eq_some_iff.mp h
      exact (ih hbefore).step (step_of_eq hstep)

/-! ## Entries -/

namespace Sound

/-- The entry of a living object is what it was last tracked with. -/
theorem lookup_held (h : Sound events w) (halive : (o, id) ∈ w.alive) :
    w.tracker.held.lookup id = (lastTrack? o events).map List.reduceOption := by
  ext tensors
  constructor
  · intro hlookup
    obtain ⟨o', given, ho', hlast, rfl⟩ := (h.mem_held id tensors).mp (Entries.mem_of_lookup hlookup)
    obtain rfl := h.owner_unique ho' halive
    rw [hlast]
    rfl
  · intro hlast
    obtain ⟨given, hgiven, rfl⟩ := Option.map_eq_some_iff.mp hlast
    exact Entries.lookup_of_mem h.nodup ((h.mem_held _ _).mpr ⟨o, given, halive, hgiven, rfl⟩)

theorem isTracked_eq (h : Sound events w) (halive : (o, id) ∈ w.alive) :
    w.tracker.isTracked id = (lastTrack? o events).isSome := by
  rw [MemoryTracker.isTracked_eq_isSome, h.lookup_held halive, Option.isSome_map]

theorem heldBy_eq (h : Sound events w) (halive : (o, id) ∈ w.alive) : w.tracker.heldBy id = owned o events := by
  rw [MemoryTracker.heldBy, h.lookup_held halive, owned]
  cases lastTrack? o events <;> rfl

/-- The entries are, in some order, those of the living objects. -/
theorem held_perm (h : Sound events w) : w.tracker.held.Perm
    (w.alive.filterMap fun p => (lastTrack? p.1 events).map fun given => (p.2, given.reduceOption)) := by
  refine (List.perm_ext_iff_of_nodup (List.Nodup.of_map _ h.nodup) ?_).mpr fun ⟨id, tensors⟩ => ?_
  · refine (List.pairwise_map.mp h.identities).filterMap _ fun p p' hne q hq q' hq' => ?_
    obtain ⟨_, _, rfl⟩ := Option.map_eq_some_iff.mp hq
    obtain ⟨_, _, rfl⟩ := Option.map_eq_some_iff.mp hq'
    exact fun heq => hne (congrArg Prod.fst heq)
  · rw [h.mem_held, List.mem_filterMap]
    constructor
    · rintro ⟨o, given, ho, hlast, rfl⟩
      exact ⟨(o, id), ho, by rw [hlast]; rfl⟩
    · rintro ⟨⟨o, id'⟩, ho, hlast⟩
      obtain ⟨given, hgiven, heq⟩ := Option.map_eq_some_iff.mp hlast
      obtain ⟨rfl, rfl⟩ := Prod.mk.inj heq
      exact ⟨o, given, ho, hgiven, rfl⟩

/-- What entries come to is what the tensors that living objects own come to. -/
theorem sum_held (h : Sound events w) (count : List Dims → Nat) (hcount : count [] = 0) :
    (w.tracker.held.map fun p => count p.2).sum = (w.alive.map fun p => count (owned p.1 events)).sum := by
  rw [(h.held_perm.map fun p => count p.2).sum_nat]
  clear h
  induction w.alive with
  | nil => rfl
  | cons p alive ih =>
      rw [List.map_cons, List.sum_cons, ← ih, owned]
      cases hlast : lastTrack? p.1 events with
      | none => simp [hlast, hcount, List.reduceOption_nil]
      | some given => simp [hlast]

end Sound

/-! ## Other objects -/

theorem Event.not_resets_of_owner? (h : e.owner? ≠ some o) : e.resets o = false := by
  cases e with
  | track o' _ | release o' => exact beq_eq_false_iff_ne.mpr fun heq => h (congrArg some heq)
  | create | collect => rfl

/-- An object stays alive where something happens to other ones. -/
theorem Step.mem_alive (h : Step w e w') (he : e.owner? ≠ some o) (halive : (o, id) ∈ w.alive) :
    (o, id) ∈ w'.alive := by
  cases h with
  | create => exact List.mem_cons_of_mem _ halive
  | track | release => exact halive
  | collect => exact List.mem_filter.mpr ⟨halive, bne_iff_ne.mpr fun heq => he (congrArg some heq.symm)⟩

/-- Nothing changes for an object while something happens to other ones. -/
theorem keeps_others (h : run? events = some w) (halive : (o, id) ∈ w.alive) (hmore : run? (events ++ more) = some w')
    (hothers : ∀ e ∈ more, e.owner? ≠ some o) :
    (o, id) ∈ w'.alive ∧ lastTrack? o (events ++ more) = lastTrack? o events := by
  induction more using List.reverseRecOn generalizing w' with
  | nil =>
      rw [List.append_nil, h] at hmore
      obtain rfl := Option.some.inj hmore
      exact ⟨halive, by rw [List.append_nil]⟩
  | append_singleton more e ih =>
      have he := hothers e (by simp)
      rw [← List.append_assoc, run?_concat] at hmore
      obtain ⟨before, hbefore, hstep⟩ := Option.bind_eq_some_iff.mp hmore
      obtain ⟨hkept, hlast⟩ := ih hbefore fun e he => hothers e (List.mem_append_left _ he)
      refine ⟨(step_of_eq hstep).mem_alive he hkept, ?_⟩
      rw [← List.append_assoc, lastTrack?_concat_of_not_resets (Event.not_resets_of_owner? he), hlast]

/-- Objects with used identities are kept apart.  Whatever happened to objects, a living one is tracked just if it was
tracked and not released since, and releasing it gives the number of its tensors.  These are counted, of all living
objects and no others.  Whatever happens to other objects after that, its entry stays.  A collection needs to know no
more than the identity of the object, since no finalizers are left but those of living objects. -/
theorem reuse_keeps_apart (h : run? events = some w) :
    (∀ o id, (o, id) ∈ w.alive →
      (w.tracker.isTracked id ↔ ∃ past tensors since, events = past ++ .track o tensors :: since ∧ .release o ∉ since) ∧
      w.tracker.held.lookup id = (lastTrack? o events).map List.reduceOption ∧
      (w.tracker.release id).1 = (owned o events).length ∧
      (∀ more w', run? (events ++ more) = some w' → (∀ e ∈ more, e.owner? ≠ some o) →
        (o, id) ∈ w'.alive ∧ w'.tracker.held.lookup id = w.tracker.held.lookup id) ∧
      ∃ w', w.step? (.collect o) = some w' ∧ w'.tracker = w.tracker.collect id) ∧
    w.tracker.info = ⟨(w.alive.map fun p => (owned p.1 events).length).sum,
      8 * (w.alive.map fun p => ((owned p.1 events).map Dims.volume).sum).sum⟩ ∧
    ∀ f ∈ w.finalizers, f ∈ w.alive := by
  have hsound := sound_of_run h
  refine ⟨fun o id halive => ⟨?_, hsound.lookup_held halive, ?_, ?_, ?_⟩, ?_, hsound.pending⟩
  · rw [hsound.isTracked_eq halive, isSome_lastTrack?_iff]
  · exact congrArg List.length (hsound.heldBy_eq halive)
  · intro more w' hmore hothers
    obtain ⟨hkept, hlast⟩ := keeps_others h halive hmore hothers
    refine ⟨hkept, ?_⟩
    rw [(sound_of_run hmore).lookup_held hkept, hlast, hsound.lookup_held halive]
  · have hlookup := Entries.lookup_of_mem hsound.owners halive
    exact ⟨_, by rw [step?, hlookup]; rfl, hsound.tracker_collect halive⟩
  · rw [MemoryTracker.info_eq, hsound.sum_held List.length rfl,
      hsound.sum_held (fun tensors => (tensors.map Dims.volume).sum) rfl]

/-- An object with the identity of a collected one has an entry of its own, also after a third one was collected. -/
theorem reuse_keeps_apart_twice :
    ∃ w, run? [.create 7, .track 0 [some [2, 3], none], .release 0, .track 0 [some [4]], .collect 0,
        .create 7, .track 1 [some [5], none, some []]] = some w ∧
      w.tracker.isTracked 7 ∧ (w.tracker.release 7).1 = 2 ∧ w.tracker.info = ⟨2, 48⟩ ∧
      ∃ w', run? [.create 7, .track 0 [some [2, 3], none], .release 0, .track 0 [some [4]], .collect 0,
          .create 7, .track 1 [some [5], none, some []], .create 9, .track 2 [some [1]], .collect 2] = some w' ∧
        w'.tracker.held.lookup 7 = w.tracker.held.lookup 7 := by
  have hrun : run? [.create 7, .track 0 [some [2, 3], none], .release 0, .track 0 [some [4]], .collect 0,
      .create 7, .track 1 [some [5], none, some []]] =
      some { created := 2, alive := [(1, 7)], finalizers := [(1, 7)], tracker := ⟨[(7, [[5], []])], [7]⟩ } := rfl
  obtain ⟨hobjects, hinfo, -⟩ := reuse_keeps_apart hrun
  obtain ⟨htracked, -, hreleased, hkept, -⟩ := hobjects 1 7 List.mem_cons_self
  have hlast := htracked.mpr ⟨[.create 7, .track 0 [some [2, 3], none], .release 0, .track 0 [some [4]],
    .collect 0, .create 7], [some [5], none, some []], [], rfl, List.not_mem_nil⟩
  refine ⟨_, hrun, hlast, hreleased, hinfo, _, rfl, ?_⟩
  exact (hkept [.create 9, .track 2 [some [1]], .collect 2] _ rfl (by simp [Event.owner?])).2

end Owners

end LayerStack
