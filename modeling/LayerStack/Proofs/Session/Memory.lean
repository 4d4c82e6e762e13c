import LayerStack.Proofs.Memory
import LayerStack.Proofs.Model.Owned
import LayerStack.Proofs.Session.Step

/-!
# LayerStack.Proofs.Session.Memory

The memory of a session is that of its living models.

`Accounts` says of a session that its tracker holds, model by model, the tensors of those that are alive and nothing
else.  That is so in a fresh session, and stays so whether a design is compiled or refused, a model is moved or disposed
of, or models are collected.  What a model owns is the same at all times (`Follows`).
-/

namespace LayerStack.Session

variable {α : Type} {s s' s'' : Session α} {id : Identity} {m m' : Model α} {models : List (Identity × Model α)}

/-! ## Models by identity -/

/-- Where every identity has one model, looking an identity up finds whatever is under it. -/
theorem lookup_eq_some_iff (h : (models.map (·.1)).Nodup) : models.lookup id = some m ↔ (id, m) ∈ models := by
  refine ⟨Entries.mem_of_lookup, fun hmem => ?_⟩
  induction models with
  | nil => contradiction
  | cons p models ih =>
      obtain ⟨hnot, hnodup⟩ := List.nodup_cons.mp h
      rcases List.mem_cons.mp hmem with rfl | hmem
      · exact List.lookup_cons_self
      · have hne : (id == p.1) = false := by
          rw [beq_eq_false_iff_ne]
          rintro rfl
          exact hnot (List.mem_map.mpr ⟨_, hmem, rfl⟩)
        rw [List.lookup_cons, hne]
        exact ih hnodup hmem

/-- The models that are alive, the newest first. -/
def alive (s : Session α) : List (Identity × Model α) := s.models.filter fun p => !p.2.disposed

theorem mem_alive (h : (s.models.map (·.1)).Nodup) :
    (id, m) ∈ s.alive ↔ s.model? id = some m ∧ m.disposed = false := by
  rw [alive, List.mem_filter, model?, lookup_eq_some_iff h, Bool.not_eq_true']

theorem filter_replace_disposed (hm : m.disposed = true) (models : List (Identity × Model α)) :
    (replace id m models).filter (fun p => !p.2.disposed) =
      (models.filter fun p => !p.2.disposed).filter (·.1 != id) := by
  induction models with
  | nil => rfl
  | cons p models ih =>
      obtain ⟨i, old⟩ := p
      rw [replace_cons]
      by_cases hi : i = id
      · cases hold : old.disposed <;> simp [hi, hm, hold, ih]
      · cases hold : old.disposed <;> simp [hi, hold, ih]

theorem map_filter_replace_kept {β : Type} (f : Identity × Model α → β) (hf : f (id, m') = f (id, m))
    (hdisposed : m'.disposed = m.disposed) (h : ∀ p ∈ models, p.1 = id → p.2 = m) :
    ((replace id m' models).filter fun p => !p.2.disposed).map f =
      (models.filter fun p => !p.2.disposed).map f := by
  induction models with
  | nil => rfl
  | cons p models ih =>
      obtain ⟨i, old⟩ := p
      obtain ⟨hfirst, hrest⟩ := List.forall_mem_cons.mp h
      rw [replace_cons]
      by_cases hi : i = id
      · obtain rfl : old = m := hfirst hi
        cases hold : old.disposed <;> simp [hi, hdisposed, hold, hf, ih hrest]
      · cases hold : old.disposed <;> simp [hi, hold, ih hrest]

theorem mem_replace {p : Identity × Model α} (h : p ∈ replace id m models) : p = (id, m) ∨ p ∈ models := by
  obtain ⟨⟨i, old⟩, hmem, rfl⟩ := List.mem_map.mp h
  by_cases hi : i = id
  · exact .inl (by simp [hi])
  · exact .inr (by simpa [hi] using hmem)

/-! ## What is owned -/

/-- A later session: every model that was there already owns what it owned. -/
structure Follows (s s' : Session α) : Prop where
  next : s.next ≤ s'.next
  owned : ∀ id m', id < s.next → s'.model? id = some m' → ∃ m, s.model? id = some m ∧ m'.owned = m.owned

theorem Follows.refl (s : Session α) : Follows s s where
  next := le_refl _
  owned := fun _ m' _ hm' => ⟨m', hm', rfl⟩

theorem Follows.trans (h : Follows s s') (h' : Follows s' s'') : Follows s s'' where
  next := le_trans h.next h'.next
  owned := by
    intro id m'' hid hm''
    obtain ⟨m', hm', howned'⟩ := h'.owned id m'' (lt_of_lt_of_le hid h.next) hm''
    obtain ⟨m, hm, howned⟩ := h.owned id m' hid hm'
    exact ⟨m, hm, howned'.trans howned⟩

/-! ## Accounts -/

/-- The tracker holds what the living models own, and identities are not used twice. -/
structure Accounts (s : Session α) : Prop where
  held : s.memory.held = (s.alive.map fun p => (p.1, p.2.owned)).reverse
  watched : s.memory.Watched
  nodup : (s.models.map (·.1)).Nodup
  known : ∀ p ∈ s.models, p.1 < s.next
  whole : ∀ p ∈ s.models, p.2.operators.length = p.2.plan.layers.length

theorem accounts_start [Scalar α] (seed : Int) (isRead : Bool) : (start seed isRead : Session α).Accounts where
  held := rfl
  watched := MemoryTracker.watched_new
  nodup := List.nodup_nil
  known := by simp [start]
  whole := by simp [start]

/-- Only the models, their memory and the next identity are accounted for. -/
theorem Accounts.congr (h : s.Accounts) (s' : Session α) (hmodels : s'.models = s.models) (hmemory : s'.memory = s.memory)
    (hnext : s'.next = s.next) : s'.Accounts ∧ Follows s s' where
  left := {
    held := by rw [hmemory, h.held, alive, alive, hmodels]
    watched := hmemory ▸ h.watched
    nodup := hmodels ▸ h.nodup
    known := by rw [hmodels, hnext]; exact h.known
    whole := by rw [hmodels]; exact h.whole }
  right := {
    next := hnext.ge
    owned := fun id m' _ hm' => ⟨m', by rw [model?, ← hmodels]; exact hm', rfl⟩ }

/-- A refused design leaves memory and models as they are. -/
theorem CompileStep.of_error {design : Design} {r : Except Failure Identity × Session α}
    (h : CompileStep design s r) {e : Failure} (he : r.1 = .error e) :
    r.2.memory = s.memory ∧ r.2.models = s.models ∧ r.2.next = s.next := by
  cases h with
  | failed => exact ⟨rfl, rfl, rfl⟩
  | compiled => contradiction

theorem Accounts.compile (h : s.Accounts) {design : Design} {r : Except Failure Identity × Session α}
    (hstep : CompileStep design s r) : r.2.Accounts ∧ Follows s r.2 := by
  cases hstep with
  | failed e log stream => exact h.congr _ rfl rfl rfl
  | @compiled plan operators hplan hlength log stream =>
      have hnew : ∀ p ∈ s.memory.held, p.1 ≠ s.next := by
        intro p hp
        rw [h.held, List.mem_reverse] at hp
        obtain ⟨q, hq, rfl⟩ := List.mem_map.mp hp
        exact Nat.ne_of_lt (h.known q (List.mem_of_mem_filter hq))
      refine ⟨⟨?held, h.watched.track _ _, ?nodup, ?known, ?whole⟩, ⟨Nat.le_succ _, ?owned⟩⟩
      case held =>
        show (s.memory.track s.next _).held = _
        rw [MemoryTracker.held_track_of_new hnew, h.held, alive, alive, List.filter_cons_of_pos rfl, List.map_cons,
          List.reverse_cons]
      case nodup =>
        refine List.nodup_cons.mpr ⟨fun hmem => ?_, h.nodup⟩
        obtain ⟨p, hp, heq⟩ := List.mem_map.mp hmem
        exact Nat.ne_of_lt (h.known p hp) heq
      case known =>
        intro p hp
        rcases List.mem_cons.mp hp with rfl | hp
        · exact Nat.lt_succ_self _
        · exact Nat.lt_succ_of_lt (h.known p hp)
      case whole => exact List.forall_mem_cons.mpr ⟨hlength, h.whole⟩
      case owned =>
        intro id m' hid hm'
        have hne : (id == s.next) = false := beq_eq_false_iff_ne.mpr (Nat.ne_of_lt hid)
        rw [model?, List.lookup_cons, hne] at hm'
        exact ⟨m', hm', rfl⟩

/-- Putting a model in the place of one that owned the same loses no tensors. -/
theorem follows_replace (m' : Model α) (hmodel : s.model? id = some m) (howned : m'.owned = m.owned)
    (hmodels : s'.models = replace id m' s.models) (hnext : s'.next = s.next) : Follows s s' where
  next := hnext.ge
  owned := by
    intro i m'' _ hm''
    rw [model?, hmodels] at hm''
    by_cases hi : i = id
    · rw [hi, lookup_replace_self hmodel] at hm''
      obtain rfl := Option.some.inj hm''
      exact ⟨m, hi ▸ hmodel, howned⟩
    · rw [lookup_replace_of_ne hi] at hm''
      exact ⟨m'', hm'', rfl⟩

/-- The identities and the sizes of models stay known where one is put in the place of another one. -/
theorem Accounts.replaced (h : s.Accounts) (m' : Model α) (hmodel : s.model? id = some m)
    (hwhole : m'.operators.length = m'.plan.layers.length) :
    ((replace id m' s.models).map (·.1)).Nodup ∧ (∀ p ∈ replace id m' s.models, p.1 < s.next) ∧
      ∀ p ∈ replace id m' s.models, p.2.operators.length = p.2.plan.layers.length := by
  refine ⟨by rw [map_fst_replace]; exact h.nodup, fun p hp => ?_, fun p hp => ?_⟩
  · rcases mem_replace hp with rfl | hp
    · exact h.known (id, m) (Entries.mem_of_lookup hmodel)
    · exact h.known p hp
  · rcases mem_replace hp with rfl | hp
    · exact hwhole
    · exact h.whole p hp

theorem Accounts.dispose (h : s.Accounts) (hstep : DisposeStep id s s') : s'.Accounts ∧ Follows s s' := by
  cases hstep with
  | idle => exact ⟨h, Follows.refl s⟩
  | @disposed m hmodel halive log =>
      have hwhole : m.dispose.operators.length = m.dispose.plan.layers.length :=
        h.whole (id, m) (Entries.mem_of_lookup hmodel)
      obtain ⟨hnodup, hknown, hwholes⟩ := h.replaced m.dispose hmodel hwhole
      refine ⟨⟨?_, h.watched.forget id, hnodup, hknown, hwholes⟩, follows_replace m.dispose hmodel rfl rfl rfl⟩
      show s.memory.held.filter (·.1 != id) = _
      rw [h.held, alive, alive, filter_replace_disposed rfl, List.filter_reverse, List.filter_map]
      rfl

/-- Whatever becomes of a model, as long as it keeps its tensors. -/
theorem Accounts.keep (h : s.Accounts) (hmodel : s.model? id = some m) (hkeeps : m.Keeps m') (stream : Stream) :
    Accounts { s with stream, models := replace id m' s.models } ∧
      Follows s { s with stream, models := replace id m' s.models } := by
  have hmem : (id, m) ∈ s.models := Entries.mem_of_lookup hmodel
  have hwhole : m'.operators.length = m'.plan.layers.length := by
    rw [hkeeps.length_operators, hkeeps.plan]
    exact h.whole _ hmem
  have hunique : ∀ p ∈ s.models, p.1 = id → p.2 = m := fun p hp hid =>
    congrArg Prod.snd (List.inj_on_of_nodup_map h.nodup hp hmem hid)
  obtain ⟨hnodup, hknown, hwholes⟩ := h.replaced m' hmodel hwhole
  refine ⟨⟨?_, h.watched, hnodup, hknown, hwholes⟩, follows_replace m' hmodel hkeeps.owned_eq rfl rfl⟩
  rw [h.held, alive, alive, map_filter_replace_kept _ (by rw [hkeeps.owned_eq]) hkeeps.disposed hunique]

/-- Of the models that are there, those that nothing refers to are collected, and no other. -/
theorem contains_collected (referred : List Identity) {p : Identity × Model α} (hp : p ∈ models) :
    ((models.filter fun q => !referred.contains q.1).map (·.1)).contains p.1 = !referred.contains p.1 := by
  rw [Bool.eq_iff_iff, List.contains_iff_mem]
  constructor
  · intro hmem
    obtain ⟨q, hq, heq⟩ := List.mem_map.mp hmem
    rw [← heq]
    exact (List.mem_filter.mp hq).2
  · exact fun hgone => List.mem_map_of_mem (List.mem_filter.mpr ⟨hp, hgone⟩)

theorem collect_eq (referred : List Identity) (s : Session α) : (collect referred s).2 = { s with
    models := s.models.filter fun p => referred.contains p.1
    memory := (s.models.filter fun p => !referred.contains p.1).foldl (fun memory (id, _) => memory.collect id)
      s.memory } := by
  let isKept (p : Identity × Model α) : Bool := referred.contains p.1
  have hparts : s.models.partition isKept = (s.models.filter isKept, s.models.filter (not ∘ isKept)) :=
    List.partition_eq_filter_filter
  show { s with
    models := (s.models.partition isKept).1
    memory := (s.models.partition isKept).2.foldl (fun memory (p : Identity × Model α) => memory.collect p.1)
      s.memory } = _
  rw [hparts]
  rfl

theorem Accounts.collect (h : s.Accounts) (referred : List Identity) :
    (Session.collect referred s).2.Accounts ∧ Follows s (Session.collect referred s).2 := by
  obtain ⟨hwatched, hheld⟩ := MemoryTracker.held_collectAll h.watched (s.models.filter fun p => !referred.contains p.1)
  have hkept : s.models.filter (fun p => referred.contains p.1) ⊆ s.models := List.filter_subset_self _
  rw [collect_eq]
  refine ⟨⟨?held, hwatched, ?nodup, fun p hp => h.known p (hkept hp), fun p hp => h.whole p (hkept hp)⟩,
    ⟨le_refl _, ?owned⟩⟩
  case held =>
    rw [hheld, h.held, List.filter_reverse, List.filter_map, alive, alive, List.filter_filter, List.filter_filter]
    refine congrArg _ (congrArg _ (List.filter_congr fun p hp => ?_))
    rw [Function.comp_apply, contains_collected referred hp, Bool.not_not, Bool.and_comm]
  case nodup => exact h.nodup.sublist (List.filter_sublist.map _)
  case owned =>
    intro id m' _ hm'
    have hmem : (id, m') ∈ s.models := hkept (Entries.mem_of_lookup hm')
    exact ⟨m', (lookup_eq_some_iff h.nodup).mpr hmem, rfl⟩

/-- Running something on a model that keeps its tensors. -/
theorem Accounts.visit {β : Type} (h : s.Accounts) (id : Identity) (run : Model α → Draw (Except RunError β × Model α))
    (hkeeps : ∀ (m : Model α) stream, m.operators.length = m.plan.layers.length → m.Keeps (run m stream).1.2) :
    (Session.visit id run s).2.Accounts ∧ Follows s (Session.visit id run s).2 := by
  cases hmodel : s.model? id with
  | none =>
      rw [Session.visit, hmodel]
      exact ⟨h, Follows.refl s⟩
  | some m =>
      have hwhole := h.whole (id, m) (Entries.mem_of_lookup hmodel)
      rw [Session.visit, hmodel]
      exact h.keep hmodel (hkeeps m s.stream hwhole) _

/-! ## Who is alive -/

/-- Running something on a model that keeps its tensors ends no model. -/
theorem Accounts.isAlive_visit {β : Type} (h : s.Accounts) (id : Identity)
    (run : Model α → Draw (Except RunError β × Model α))
    (hkeeps : ∀ (m : Model α) stream, m.operators.length = m.plan.layers.length → m.Keeps (run m stream).1.2)
    (i : Identity) : (Session.visit id run s).2.IsAlive i ↔ s.IsAlive i := by
  cases hmodel : s.model? id with
  | none => rw [Session.visit, hmodel]
  | some m =>
      have hdisposed := (hkeeps m s.stream (h.whole (id, m) (Entries.mem_of_lookup hmodel))).disposed
      rw [Session.visit, hmodel]
      show (∃ m', (Session.replace id _ s.models).lookup i = some m' ∧ m'.disposed = false) ↔ _
      by_cases hi : i = id
      · rw [hi, lookup_replace_self hmodel, IsAlive, hmodel]
        simp only [Option.some.injEq, exists_eq_left', hdisposed]
      · rw [lookup_replace_of_ne hi]
        rfl

/-- A collection ends the models that nothing refers to, and no other. -/
theorem Accounts.isAlive_collect (h : s.Accounts) (referred : List Identity) (i : Identity) :
    (Session.collect referred s).2.IsAlive i ↔ s.IsAlive i ∧ i ∈ referred := by
  have hnodup : ((s.models.filter fun p => referred.contains p.1).map (·.1)).Nodup :=
    h.nodup.sublist (List.filter_sublist.map _)
  have hmodel (m : Model α) : (Session.collect referred s).2.model? i = some m ↔
      s.model? i = some m ∧ i ∈ referred := by
    rw [collect_eq, model?, model?, lookup_eq_some_iff hnodup, lookup_eq_some_iff h.nodup, List.mem_filter,
      List.contains_iff_mem]
  simp only [IsAlive, hmodel]
  constructor
  · rintro ⟨m, ⟨hm, hi⟩, halive⟩
    exact ⟨⟨m, hm, halive⟩, hi⟩
  · rintro ⟨⟨m, hm, halive⟩, hi⟩
    exact ⟨m, ⟨hm, hi⟩, halive⟩

/-! ## Counts -/

/-- The counters are those of the living models. -/
theorem Accounts.info_eq (h : s.Accounts) : s.memory.info = ⟨(s.alive.map fun p => p.2.tensorCount).sum,
    8 * (s.alive.map fun p => p.2.total + p.2.constantCount).sum⟩ := by
  have htensors : s.memory.held.map (fun p => p.2.length) = (s.alive.map fun p => p.2.tensorCount).reverse := by
    rw [h.held, List.map_reverse, List.map_map]
    exact congrArg _ (List.map_congr_left fun p _ => p.2.length_owned)
  have hentries : s.memory.held.map (fun p => (p.2.map Dims.volume).sum) =
      (s.alive.map fun p => p.2.total + p.2.constantCount).reverse := by
    rw [h.held, List.map_reverse, List.map_map]
    exact congrArg _ (List.map_congr_left fun p _ => p.2.sum_volume_owned)
  rw [MemoryTracker.info_eq, htensors, hentries, List.sum_reverse, List.sum_reverse]

theorem Accounts.mem_held (h : s.Accounts) {tensors : List Dims} :
    (id, tensors) ∈ s.memory.held ↔ ∃ m, s.model? id = some m ∧ m.disposed = false ∧ m.owned = tensors := by
  rw [h.held, List.mem_reverse]
  constructor
  · intro hmem
    obtain ⟨⟨i, m⟩, halive, heq⟩ := List.mem_map.mp hmem
    obtain ⟨rfl, rfl⟩ := Prod.mk.inj heq
    obtain ⟨hmodel, hdisposed⟩ := (mem_alive h.nodup).mp halive
    exact ⟨m, hmodel, hdisposed, rfl⟩
  · rintro ⟨m, hmodel, hdisposed, rfl⟩
    exact List.mem_map_of_mem ((mem_alive h.nodup).mpr ⟨hmodel, hdisposed⟩)

/-- The models that are tracked are those that are alive. -/
theorem Accounts.isTracked_iff (h : s.Accounts) : s.memory.isTracked id ↔ s.IsAlive id := by
  rw [MemoryTracker.isTracked, List.any_eq_true]
  constructor
  · rintro ⟨⟨i, tensors⟩, hmem, hi⟩
    obtain rfl : i = id := beq_iff_eq.mp hi
    obtain ⟨m, hmodel, hdisposed, _⟩ := h.mem_held.mp hmem
    exact ⟨m, hmodel, hdisposed⟩
  · rintro ⟨m, hmodel, hdisposed⟩
    exact ⟨(id, m.owned), h.mem_held.mpr ⟨m, hmodel, hdisposed, rfl⟩, beq_self_eq_true id⟩

theorem Accounts.nodup_held (h : s.Accounts) : s.memory.held.Nodup := by
  have hkeys : (s.alive.map (·.1)).Nodup := h.nodup.sublist (List.filter_sublist.map _)
  rw [h.held, List.nodup_reverse]
  refine List.Nodup.of_map (·.1) ?_
  rw [List.map_map]
  exact hkeys

/-- While the same models are alive the counters are the same. -/
theorem Accounts.info_congr (h : s.Accounts) (h' : s'.Accounts) (hfollows : Follows s s')
    (hsame : ∀ id, s'.IsAlive id ↔ s.IsAlive id) : s'.memory.info = s.memory.info := by
  have hknown {id : Identity} {m : Model α} (hm : s.model? id = some m) : id < s.next :=
    h.known (id, m) (Entries.mem_of_lookup hm)
  have hperm : s'.memory.held.Perm s.memory.held := by
    rw [List.perm_ext_iff_of_nodup h'.nodup_held h.nodup_held]
    intro (id, tensors)
    rw [h'.mem_held, h.mem_held]
    constructor
    · rintro ⟨m', hm', halive', rfl⟩
      obtain ⟨m, hm, halive⟩ := (hsame id).mp ⟨m', hm', halive'⟩
      obtain ⟨m₀, hm₀, howned⟩ := hfollows.owned id m' (hknown hm) hm'
      obtain rfl : m₀ = m := Option.some.inj (hm₀.symm.trans hm)
      exact ⟨m₀, hm, halive, howned.symm⟩
    · rintro ⟨m, hm, halive, rfl⟩
      obtain ⟨m', hm', halive'⟩ := (hsame id).mpr ⟨m, hm, halive⟩
      obtain ⟨m₀, hm₀, howned⟩ := hfollows.owned id m' (hknown hm) hm'
      obtain rfl : m₀ = m := Option.some.inj (hm₀.symm.trans hm)
      exact ⟨m', hm', halive', howned⟩
  rw [MemoryTracker.info_eq, MemoryTracker.info_eq, (hperm.map _).sum_eq, (hperm.map _).sum_eq]

/-- A model has the same counts at all times. -/
theorem Accounts.counts_eq (h : s.Accounts) (hfollows : Follows s s') (hm : s.model? id = some m)
    (hm' : s'.model? id = some m') :
    m'.tensorCount = m.tensorCount ∧ m'.total + m'.constantCount = m.total + m.constantCount := by
  obtain ⟨m₀, hm₀, howned⟩ := hfollows.owned id m' (h.known (id, m) (Entries.mem_of_lookup hm)) hm'
  obtain rfl : m₀ = m := Option.some.inj (hm₀.symm.trans hm)
  rw [← m'.length_owned, ← m'.sum_volume_owned, howned, m₀.length_owned, m₀.sum_volume_owned]
  exact ⟨rfl, rfl⟩

end LayerStack.Session
