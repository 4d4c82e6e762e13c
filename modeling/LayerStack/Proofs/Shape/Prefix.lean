import LayerStack.Proofs.Shape.Step

/-!
# LayerStack.Proofs.Shape.Prefix

A failure is located at the first layer that fails, and the layers before it are unaffected.

The analysis of a design is compared with its analyses cut short, and with the check of all parameters, which does not
stop at a failure.  `Stops` is what is known of layers whose analysis fails: cut short before the failing layer they are
resolved, cut short after it they fail alike.
-/

namespace LayerStack.ShapePlan

variable {index : Nat} {shape : Shape} {layers : List ResolvedLayer} {rest : List (LayerRecord × LayerType)}
  {e : AnalysisError}

/-! ## Layers cut short -/

/-- Fewer layers are resolved as they are among more. -/
theorem resolveLayers_take (h : resolveLayers index shape rest = .ok layers) (n : Nat) :
    resolveLayers index shape (rest.take n) = .ok (layers.take n) := by
  induction rest generalizing index shape layers n with
  | nil =>
      obtain rfl := Except.ok.inj h
      simp [resolveLayers]
  | cons entry rest ih =>
      obtain ⟨layer, tail, hlayer, htail, rfl⟩ := resolveLayers_cons_eq_ok.mp h
      cases n with
      | zero => rfl
      | succ n => exact resolveLayers_cons_eq_ok.mpr ⟨layer, tail.take n, hlayer, ih htail n, rfl⟩

/-- Every layer of a list that is resolved has its place among those it comes to. -/
theorem resolves_of_resolveLayers (h : resolveLayers index shape rest = .ok layers) {j : Nat}
    {record : LayerRecord} {t : LayerType} (hj : rest[j]? = some (record, t)) :
    ∃ layer input, layers[j]? = some layer ∧ Resolves (index + j) input record t layer := by
  induction rest generalizing index shape layers j with
  | nil => simp at hj
  | cons entry rest ih =>
      obtain ⟨layer, tail, hlayer, htail, rfl⟩ := resolveLayers_cons_eq_ok.mp h
      cases j with
      | zero =>
          obtain rfl := Option.some.inj hj
          exact ⟨layer, shape, rfl, hlayer⟩
      | succ j =>
          obtain ⟨layer', input, hplace, hresolves⟩ := ih htail hj
          exact ⟨layer', input, hplace, by rwa [Nat.add_right_comm] at hresolves⟩

/-- So it has its parameters resolved. -/
theorem resolveParams_of_resolveLayers (h : resolveLayers index shape rest = .ok layers) {j : Nat}
    {record : LayerRecord} {t : LayerType} (hj : rest[j]? = some (record, t)) :
    ∃ params, resolveParams (index + j) record t = .ok params := by
  obtain ⟨layer, _, _, hlayer⟩ := resolves_of_resolveLayers h hj
  exact ⟨layer.params, hlayer.params⟩

/-- The analysis of layers stops at place `n` with an error. -/
structure Stops (index : Nat) (shape : Shape) (rest : List (LayerRecord × LayerType)) (n : Nat) (e : AnalysisError) :
    Prop where
  before : ∀ m ≤ n, ∃ layers, resolveLayers index shape (rest.take m) = .ok layers
  after : ∀ m, n < m → resolveLayers index shape (rest.take m) = .error e
  here : ∃ record t input, rest[n]? = some (record, t) ∧ resolveLayer (index + n) input record t = .error e

/-- An analysis that fails stops at one of the layers. -/
theorem stops_of_error (h : resolveLayers index shape rest = .error e) : ∃ n, Stops index shape rest n e := by
  induction rest generalizing index shape with
  | nil => contradiction
  | cons entry rest ih =>
      obtain ⟨record, t⟩ := entry
      rcases resolveLayers_cons_eq_error.mp h with hlayer | ⟨layer, hlayer, hrest⟩
      · refine ⟨0, ⟨fun m hm => ?_, fun m hm => ?_, record, t, shape, rfl, hlayer⟩⟩
        · obtain rfl := Nat.le_zero.mp hm
          exact ⟨[], rfl⟩
        · obtain ⟨m, rfl⟩ := Nat.exists_eq_add_of_lt hm
          exact resolveLayers_cons_eq_error.mpr (.inl hlayer)
      · obtain ⟨n, hn⟩ := ih hrest
        refine ⟨n + 1, ⟨fun m hm => ?_, fun m hm => ?_, ?_⟩⟩
        · cases m with
          | zero => exact ⟨[], rfl⟩
          | succ m =>
              obtain ⟨tail, htail⟩ := hn.before m (by omega)
              exact ⟨layer :: tail, resolveLayers_cons_eq_ok.mpr ⟨layer, tail, hlayer, htail, rfl⟩⟩
        · cases m with
          | zero => omega
          | succ m => exact resolveLayers_cons_eq_error.mpr (.inr ⟨layer, hlayer, hn.after m (by omega)⟩)
        · obtain ⟨record', t', input, hplace, herror⟩ := hn.here
          exact ⟨record', t', input, hplace, by rwa [Nat.add_right_comm] at herror⟩

/-! ## IsDesign cut short -/

variable {first : LayerRecord} {records : List LayerRecord}

/-- Records whose tags are known, and none an input's, pass. -/
theorem exists_checkRest (start : Nat)
    (h : ∀ record ∈ records, ∃ t, LayerType.ofTag? record.type = some t ∧ t ≠ .input) :
    ∃ rest, checkRest start records = .ok rest := by
  induction records generalizing start with
  | nil => exact ⟨[], rfl⟩
  | cons record records ih =>
      obtain ⟨t, htag, ht⟩ := h record List.mem_cons_self
      obtain ⟨rest, hrest⟩ := ih (start + 1) fun record hrecord => h record (List.mem_cons_of_mem _ hrecord)
      exact ⟨(record, t) :: rest, checkRest_cons.mpr ⟨t, rest, htag, ht, hrest, rfl⟩⟩

theorem checkRest_take {start : Nat} (h : checkRest start records = .ok rest) (n : Nat) :
    checkRest start (records.take n) = .ok (rest.take n) := by
  induction records generalizing start rest n with
  | nil =>
      obtain rfl := Except.ok.inj h
      simp [checkRest]
  | cons record records ih =>
      obtain ⟨t, tail, htag, ht, htail, rfl⟩ := checkRest_cons.mp h
      cases n with
      | zero => rfl
      | succ n => exact checkRest_cons.mpr ⟨t, tail.take n, htag, ht, ih htail n, rfl⟩

/-- What stands at a place after checking is the record there and the type of its tag. -/
theorem record_of_checkRest {start : Nat} (h : checkRest start records = .ok rest) {j : Nat} {record : LayerRecord}
    {t : LayerType} (hj : rest[j]? = some (record, t)) :
    records[j]? = some record ∧ LayerType.ofTag? record.type = some t := by
  induction records generalizing start rest j with
  | nil =>
      obtain rfl := Except.ok.inj h
      simp at hj
  | cons head records ih =>
      obtain ⟨t', tail, htag, _, htail, rfl⟩ := checkRest_cons.mp h
      cases j with
      | zero =>
          obtain ⟨rfl, rfl⟩ := Prod.mk.inj (Option.some.inj hj)
          exact ⟨rfl, htag⟩
      | succ j => exact ih htail hj

/-- Every record has its place after checking. -/
theorem getElem?_checkRest {start : Nat} (h : checkRest start records = .ok rest) {j : Nat} {record : LayerRecord}
    (hj : records[j]? = some record) : ∃ t, LayerType.ofTag? record.type = some t ∧ rest[j]? = some (record, t) := by
  induction records generalizing start rest j with
  | nil => simp at hj
  | cons head records ih =>
      obtain ⟨t, tail, htag, _, htail, rfl⟩ := checkRest_cons.mp h
      cases j with
      | zero =>
          obtain rfl := Option.some.inj hj
          exact ⟨t, htag, rfl⟩
      | succ j => exact ih htail hj

/-- The shape fed to the first of some layers: the declared one, with a channel axis if the layer takes it as one
channel. -/
def opening (types : List LayerType) (declared : Shape) : Shape :=
  if types.head?.any fun t => promotesChannels t && declared.length == 2 then declared ++ [1] else declared

/-- The first record of a design and the records after it are an input and layers of known types. -/
structure Starts (first : LayerRecord) (records : List LayerRecord) (rest : List (LayerRecord × LayerType)) : Prop where
  input : first.type = LayerType.input.tag
  nonempty : rest ≠ []
  checked : checkRest 1 records = .ok rest

/-- What passes as a whole starts as a design does. -/
theorem starts_of_checkStructure (h : checkStructure records = .ok (first, rest)) :
    ∃ tail, records = first :: tail ∧ Starts first tail rest := by
  cases records with
  | nil => contradiction
  | cons record tail =>
      simp only [checkStructure] at h
      split at h
      · contradiction
      · next htag =>
          simp only [bind_eq_ok] at h
          obtain ⟨rest', hrest, h⟩ := h
          split at h
          · contradiction
          · next hnonempty =>
              obtain ⟨rfl, rfl⟩ := Prod.mk.inj (Except.ok.inj h)
              exact ⟨tail, rfl, Decidable.not_not.mp htag, by simpa using hnonempty, hrest⟩

/-- A design that has a plan starts as one. -/
theorem starts_of_ofRecords {plan : ShapePlan} (h : ofRecords records = .ok plan) :
    ∃ first tail rest, records = first :: tail ∧ Starts first tail rest := by
  simp only [ofRecords, outline, bind_eq_ok, Analysis.ofDesign_eq_ok] at h
  obtain ⟨o, ⟨⟨first, rest⟩, hstructure, _⟩, _⟩ := h
  obtain ⟨tail, htail, hstarts⟩ := starts_of_checkStructure hstructure
  exact ⟨first, tail, rest, htail, hstarts⟩

namespace Starts

/-- A design stays one if it is cut short after the first layer at the earliest. -/
theorem take (h : Starts first records rest) (n : Nat) : Starts first (records.take (n + 1)) (rest.take (n + 1)) where
  input := h.input
  nonempty := by simpa using h.nonempty
  checked := checkRest_take h.checked (n + 1)

/-- The outline of a design that starts well hangs on its input layer alone. -/
theorem outline_eq (h : Starts first records rest) :
    outline (first :: records) = (do
      let params ← resolveParams 0 first .input
      let declared ← Analysis.ofFault (LayerConfig.inputShape? params)
      let promotes := rest.head?.any fun (_, t) => promotesChannels t && declared.length == 2
      return { declared, input := if promotes then declared ++ [1] else declared, rest }) := by
  have hstructure : checkStructure (first :: records) = .ok (first, rest) := by
    rw [checkStructure, if_neg (fun hne => hne h.input), h.checked]
    simp [bind, Except.bind, h.nonempty, pure, Except.pure]
  rw [outline, hstructure]
  cases hrest : rest with
  | nil => exact absurd hrest h.nonempty
  | cons entry tail => rfl

/-- What a plan of a design that starts well is made of. -/
theorem ofRecords_eq_ok (h : Starts first records rest) {plan : ShapePlan} :
    ofRecords (first :: records) = .ok plan ↔
      ∃ params, resolveParams 0 first .input = .ok params ∧ LayerConfig.inputShape? params = .ok plan.declared ∧
        plan.input = opening (rest.map (·.2)) plan.declared ∧ resolveLayers 1 plan.input rest = .ok plan.layers := by
  rw [ofRecords, h.outline_eq]
  simp only [bind_eq_ok, pure_eq_ok, Analysis.ofFault_eq_ok]
  have hopening (declared : Shape) : opening (rest.map (·.2)) declared =
      if rest.head?.any fun (_, t) => promotesChannels t && declared.length == 2 then declared ++ [1] else declared := by
    rw [opening, List.head?_map]
    cases rest.head? <;> rfl
  constructor
  · rintro ⟨o, ⟨params, hparams, declared, hdeclared, rfl⟩, layers, hlayers, rfl⟩
    exact ⟨params, hparams, hdeclared, (hopening declared).symm, hlayers⟩
  · rintro ⟨params, hparams, hdeclared, hinput, hlayers⟩
    refine ⟨_, ⟨params, hparams, plan.declared, hdeclared, rfl⟩, plan.layers, ?_, ?_⟩
    · rw [← hopening, ← hinput]
      exact hlayers
    · rw [← hopening, ← hinput]

theorem rest_eq (h : Starts first records rest) {o : Outline} (ho : outline (first :: records) = .ok o) :
    o.rest = rest := by
  rw [h.outline_eq] at ho
  simp only [bind_eq_ok, pure_eq_ok] at ho
  obtain ⟨params, _, declared, _, rfl⟩ := ho
  rfl

/-- Only the parameters of the input layer can be blamed before the first layer is resolved. -/
theorem outline_eq_error (h : Starts first records rest) {e : DesignError}
    (he : outline (first :: records) = .error (.design e)) : resolveParams 0 first .input = .error (.design e) := by
  rw [h.outline_eq] at he
  simp only [bind_eq_error, pure_ne_error, and_false, exists_false, or_false, Analysis.ofFault_ne_design] at he
  exact he

/-- The input layer of a design with an outline has its parameters resolved. -/
theorem exists_resolveParams (h : Starts first records rest) {o : Outline}
    (ho : outline (first :: records) = .ok o) : ∃ params, resolveParams 0 first .input = .ok params := by
  rw [h.outline_eq] at ho
  simp only [bind_eq_ok] at ho
  obtain ⟨params, hparams, _⟩ := ho
  exact ⟨params, hparams⟩

/-- Cut short, a design has the same outline but for the layers that are left to resolve. -/
theorem outline_take (h : Starts first records rest) (n : Nat) :
    outline (first :: records.take (n + 1)) =
      (fun o => { o with rest := rest.take (n + 1) }) <$> outline (first :: records) := by
  rw [h.outline_eq, (h.take n).outline_eq]
  have hhead : (rest.take (n + 1)).head? = rest.head? := by cases rest <;> rfl
  rw [hhead]
  cases resolveParams 0 first .input with
  | error e => rfl
  | ok params =>
      cases hdeclared : Analysis.ofFault (LayerConfig.inputShape? params) with
      | error e => simp [bind, Except.bind, hdeclared, Functor.map, Except.map]
      | ok declared => simp [bind, Except.bind, hdeclared, Functor.map, Except.map, pure, Except.pure]

variable {plan : ShapePlan}

/-- Cut short, a design that has a plan has the same plan but for the layers that are cut off. -/
theorem ofRecords_take (h : Starts first records rest) (hplan : ofRecords (first :: records) = .ok plan) (n : Nat) :
    ofRecords (first :: records.take (n + 1)) = .ok { plan with layers := plan.layers.take (n + 1) } := by
  simp only [ofRecords, bind_eq_ok, pure_eq_ok] at hplan ⊢
  obtain ⟨o, houtline, layers, hlayers, rfl⟩ := hplan
  refine ⟨{ o with rest := rest.take (n + 1) }, ?_, layers.take (n + 1), ?_, rfl⟩
  · rw [h.outline_take, houtline]
    rfl
  · have hrest : o.rest = rest := h.rest_eq houtline
    exact resolveLayers_take (hrest ▸ hlayers) (n + 1)

/-- A design that has no plan has no outline, or stops at a layer after the first. -/
theorem ofRecords_eq_error (h : Starts first records rest) (he : ofRecords (first :: records) = .error e) :
    outline (first :: records) = .error e ∨
      ∃ o n, outline (first :: records) = .ok o ∧ Stops 1 o.input rest n e := by
  simp only [ofRecords, bind_eq_error, pure_ne_error, and_false, exists_false, or_false] at he
  rcases he with he | ⟨o, ho, he⟩
  · exact .inl he
  · obtain ⟨n, hn⟩ := stops_of_error he
    exact .inr ⟨o, n, ho, h.rest_eq ho ▸ hn⟩

/-- Without an outline, a design fails alike wherever it is cut short. -/
theorem ofRecords_take_of_outline (h : Starts first records rest) (he : outline (first :: records) = .error e) (n : Nat) :
    ofRecords (first :: records.take (n + 1)) = .error e := by
  rw [ofRecords, h.outline_take, he]
  rfl

/-- With an outline, it comes to what the layers that are left come to. -/
theorem ofRecords_take_of_layers (h : Starts first records rest) {o : Outline}
    (ho : outline (first :: records) = .ok o) (n : Nat) :
    ofRecords (first :: records.take (n + 1)) =
      (fun layers => { declared := o.declared, input := o.input, layers }) <$>
        resolveLayers 1 o.input (rest.take (n + 1)) := by
  rw [ofRecords, h.outline_take, ho]
  cases hlayers : resolveLayers 1 o.input (rest.take (n + 1)) with
  | error e => simp [bind, Except.bind, Functor.map, Except.map, hlayers]
  | ok layers => simp [bind, Except.bind, Functor.map, Except.map, hlayers, pure, Except.pure]

/-- Layers that stop at a place after the first place their design there: cut short before, it has a plan, cut short
after, it fails alike. -/
theorem stops_located (h : Starts first records rest) {o : Outline} (ho : outline (first :: records) = .ok o) {n : Nat}
    (hstops : Stops 1 o.input rest n e) :
    (∀ m, m + 2 ≤ 1 + n → ∃ plan, ofRecords (first :: records.take (m + 1)) = .ok plan) ∧
      ∀ m, 1 + n ≤ m + 1 → ofRecords (first :: records.take (m + 1)) = .error e := by
  constructor
  · intro m hm
    obtain ⟨layers, hlayers⟩ := hstops.before (m + 1) (by omega)
    exact ⟨_, by rw [h.ofRecords_take_of_layers ho, hlayers]; rfl⟩
  · intro m hm
    rw [h.ofRecords_take_of_layers ho, hstops.after (m + 1) (by omega)]
    rfl

end Starts

/-! ## The check of all parameters -/

section Failing

variable {start j : Nat} {record : LayerRecord} {t : LayerType} {v : Validation} {failures : List (Nat × Validation)}

theorem failing_cons :
    Validation.failing start (record :: records) = .ok failures ↔
      ∃ t v tail, LayerType.ofTag? record.type = some t ∧ Validation.ofParams t record.params = .ok v ∧
        Validation.failing (start + 1) records = .ok tail ∧
        (if v.isValid then tail else (start, v) :: tail) = failures := by
  rw [Validation.failing, LayerRecord.layerType]
  cases LayerType.ofTag? record.type with
  | none => simp [bind, Except.bind]
  | some t => simp [bind_eq_ok, map_eq_ok, Analysis.ofFault_eq_ok]

/-- What is reported is at a place with something wrong about it. -/
theorem invalid_of_mem_failing (h : Validation.failing start records = .ok failures) {p : Nat × Validation}
    (hp : p ∈ failures) :
    ∃ j record t, p.1 = start + j ∧ records[j]? = some record ∧ LayerType.ofTag? record.type = some t ∧
      Validation.ofParams t record.params = .ok p.2 ∧ p.2.isValid = false := by
  induction records generalizing start failures with
  | nil =>
      obtain rfl := Except.ok.inj h
      simp at hp
  | cons record records ih =>
      obtain ⟨t, v, tail, htag, hv, htail, rfl⟩ := failing_cons.mp h
      have later (hp : p ∈ tail) : ∃ j record' t, p.1 = start + j ∧ (record :: records)[j]? = some record' ∧
          LayerType.ofTag? record'.type = some t ∧ Validation.ofParams t record'.params = .ok p.2 ∧
          p.2.isValid = false := by
        obtain ⟨j, record', t, hj, hrecord, hrest⟩ := ih htail hp
        exact ⟨j + 1, record', t, by omega, by simpa using hrecord, hrest⟩
      cases hvalid : v.isValid with
      | true => exact later (by simpa [hvalid] using hp)
      | false =>
          simp only [hvalid, Bool.false_eq_true, if_false] at hp
          rcases List.mem_cons.mp hp with rfl | hp
          · exact ⟨0, record, t, rfl, rfl, htag, hv, hvalid⟩
          · exact later hp

/-- A place with something wrong about it is reported, with all that is wrong. -/
theorem lookup_failing (h : Validation.failing start records = .ok failures) (hj : records[j]? = some record)
    (ht : LayerType.ofTag? record.type = some t) (hv : Validation.ofParams t record.params = .ok v)
    (hinvalid : v.isValid = false) : failures.lookup (start + j) = some v := by
  induction records generalizing start failures j with
  | nil => simp at hj
  | cons head records ih =>
      obtain ⟨t', v', tail, htag, hv', htail, rfl⟩ := failing_cons.mp h
      cases j with
      | zero =>
          obtain rfl := Option.some.inj hj
          obtain rfl := Option.some.inj (htag.symm.trans ht)
          obtain rfl := Except.ok.inj (hv'.symm.trans hv)
          simp [hinvalid]
      | succ j =>
          have htailLookup := ih htail hj
          rw [Nat.add_right_comm] at htailLookup
          have hne : (start + j + 1 == start) = false := by simp; omega
          split
          · exact htailLookup
          · rw [← Nat.add_assoc, List.lookup_cons, hne]
            exact htailLookup

/-- What is reported is not at a place whose parameters are resolved. -/
theorem ne_of_resolveParams (h : Validation.failing 0 records = .ok failures) (hj : records[j]? = some record)
    (ht : LayerType.ofTag? record.type = some t) {params : Entries String Value}
    (hparams : resolveParams j record t = .ok params) {p : Nat × Validation} (hp : p ∈ failures) : p.1 ≠ j := by
  intro hplace
  obtain ⟨j', record', t', hj', hrecord', ht', hv, hinvalid⟩ := invalid_of_mem_failing h hp
  rw [Nat.zero_add] at hj'
  rw [← hj', hplace, hj] at hrecord'
  obtain rfl := Option.some.inj hrecord'
  obtain rfl := Option.some.inj (ht.symm.trans ht')
  obtain ⟨v, hv', hvalid, _⟩ := resolveParams_eq_ok.mp hparams
  obtain rfl := Except.ok.inj (hv.symm.trans hv')
  simp [hinvalid] at hvalid

end Failing

/-! ## The first failure -/

/-- A list of records of a design: at least two, the first of them an input and the others of known types that are
none. -/
structure IsDesign (records : List LayerRecord) : Prop where
  long : 2 ≤ records.length
  head : ∀ record ∈ records.head?, record.type = LayerType.input.tag
  tail : ∀ record ∈ records.tail, ∃ t, LayerType.ofTag? record.type = some t ∧ t ≠ .input

theorem starts_of_isDesign (h : IsDesign records) :
    ∃ first tail rest, records = first :: tail ∧ Starts first tail rest := by
  obtain ⟨hlong, hhead, htail⟩ := h
  cases records with
  | nil => simp at hlong
  | cons first tail =>
      obtain ⟨rest, hrest⟩ := exists_checkRest 1 htail
      refine ⟨first, tail, rest, rfl, hhead first rfl, ?_, hrest⟩
      cases tail with
      | nil => simp at hlong
      | cons record tail =>
          obtain ⟨t, tail', _, _, _, rfl⟩ := checkRest_cons.mp hrest
          simp

namespace Starts

variable {failures : List (Nat × Validation)} {p : Nat × Validation}

/-- What is reported of a design is past all places up to which parameters are resolved. -/
theorem lt_of_mem_failing (h : Starts first records rest)
    (hfailures : Validation.failing 0 (first :: records) = .ok failures) (hp : p ∈ failures) {o : Outline}
    (ho : outline (first :: records) = .ok o) {n : Nat}
    (hn : ∀ j < n, ∀ record t, rest[j]? = some (record, t) → ∃ params, resolveParams (1 + j) record t = .ok params) :
    n < p.1 := by
  obtain ⟨j, record, t, hj, hrecord, ht, _⟩ := invalid_of_mem_failing hfailures hp
  rw [Nat.zero_add] at hj
  cases j with
  | zero =>
      obtain ⟨params, hparams⟩ := h.exists_resolveParams ho
      have hinput : LayerType.ofTag? first.type = some .input := h.input ▸ LayerType.ofTag?_tag .input
      exact absurd hj (ne_of_resolveParams hfailures (j := 0) rfl hinput hparams hp)
  | succ j =>
      obtain ⟨t', ht', hplace⟩ := getElem?_checkRest h.checked (j := j) hrecord
      rcases Nat.lt_or_ge j n with hlt | hge
      · obtain ⟨params, hparams⟩ := hn j hlt record t' hplace
        rw [Nat.add_comm] at hparams
        exact absurd hj (ne_of_resolveParams hfailures hrecord ht' hparams hp)
      · omega

/-- So nothing is reported of a design with a plan. -/
theorem failing_eq_nil (h : Starts first records rest)
    (hfailures : Validation.failing 0 (first :: records) = .ok failures) {plan : ShapePlan}
    (hplan : ofRecords (first :: records) = .ok plan) : failures = [] := by
  simp only [ofRecords, bind_eq_ok] at hplan
  obtain ⟨o, ho, layers, hlayers, _⟩ := hplan
  rw [h.rest_eq ho] at hlayers
  refine List.eq_nil_iff_forall_not_mem.mpr fun p hp => Nat.lt_irrefl p.1 ?_
  exact h.lt_of_mem_failing hfailures hp ho fun j _ record t hj => resolveParams_of_resolveLayers hlayers hj

/-- And nothing at the layers before the one where the analysis stops. -/
theorem lt_of_mem_failing_of_stops (h : Starts first records rest)
    (hfailures : Validation.failing 0 (first :: records) = .ok failures) (hp : p ∈ failures) {o : Outline}
    (ho : outline (first :: records) = .ok o) {n : Nat} (hstops : Stops 1 o.input rest n e) : n < p.1 := by
  obtain ⟨layers, hlayers⟩ := hstops.before n (Nat.le_refl n)
  refine h.lt_of_mem_failing hfailures hp ho fun j hj record t hplace => ?_
  have htake : (rest.take n)[j]? = some (record, t) := by rw [List.getElem?_take_of_lt hj, hplace]
  exact resolveParams_of_resolveLayers hlayers htake

/-- Where a design without a plan is blamed: its input layer, or the layer the analysis stops at, which is blamed for
its parameters or, where those are resolved, for its shape. -/
inductive Blamed (first : LayerRecord) (records : List LayerRecord) (rest : List (LayerRecord × LayerType))
    (d : DesignError) : Prop where
  | input (houtline : outline (first :: records) = .error (.design d))
    (hparams : resolveParams 0 first .input = .error (.design d))
  | parameters {o : Outline} {n : Nat} {record : LayerRecord} {t : LayerType}
    (houtline : outline (first :: records) = .ok o) (hstops : Stops 1 o.input rest n (.design d))
    (hplace : rest[n]? = some (record, t)) (hparams : resolveParams (1 + n) record t = .error (.design d))
  | shape {o : Outline} {n : Nat} {record : LayerRecord} {t : LayerType} {params : Entries String Value}
    {reason : String} (houtline : outline (first :: records) = .ok o) (hstops : Stops 1 o.input rest n (.design d))
    (hplace : rest[n]? = some (record, t)) (hparams : resolveParams (1 + n) record t = .ok params)
    (hreason : d = .shape (1 + n) t.tag reason)

theorem blamed_of_error (h : Starts first records rest) {d : DesignError}
    (hd : ofRecords (first :: records) = .error (.design d)) : Blamed first records rest d := by
  rcases h.ofRecords_eq_error hd with houtline | ⟨o, n, houtline, hstops⟩
  · exact .input houtline (h.outline_eq_error houtline)
  · obtain ⟨record, t, input, hplace, hlayer⟩ := hstops.here
    rcases resolveLayer_eq_error hlayer with hparams | ⟨⟨params, hparams⟩, ⟨f, hf⟩ | ⟨reason, hreason⟩⟩
    · exact .parameters houtline hstops hplace hparams
    · exact absurd hf (by simp)
    · exact .shape houtline hstops hplace hparams (AnalysisError.design.inj hreason)

/-- The place a design is blamed at. -/
theorem exists_layerIndex (h : Starts first records rest) {d : DesignError} (hd : Blamed first records rest d) :
    ∃ i : Nat, d.layerIndex = some (i : Int) ∧
      (∀ m, m + 2 ≤ i → ∃ plan, ofRecords (first :: records.take (m + 1)) = .ok plan) ∧
      ∀ m, i ≤ m + 1 → ofRecords (first :: records.take (m + 1)) = .error (.design d) := by
  cases hd with
  | input houtline hparams =>
      obtain ⟨v, _, _, rfl⟩ := resolveParams_eq_error.mp hparams
      exact ⟨0, rfl, by omega, fun m _ => h.ofRecords_take_of_outline houtline m⟩
  | parameters houtline hstops hplace hparams =>
      obtain ⟨v, _, _, rfl⟩ := resolveParams_eq_error.mp hparams
      exact ⟨_, rfl, h.stops_located houtline hstops⟩
  | shape houtline hstops hplace hparams hreason =>
      subst hreason
      exact ⟨_, rfl, h.stops_located houtline hstops⟩

/-- A layer that is blamed for its parameters is the first to be reported, and with the same reasons. -/
theorem reported_of_parameters (h : Starts first records rest)
    (hfailures : Validation.failing 0 (first :: records) = .ok failures) {d : DesignError}
    (hd : Blamed first records rest d) (hclass : d.errorClass = .parameter) {i : Nat}
    (hi : d.layerIndex = some (i : Int)) :
    (∀ p ∈ failures, i ≤ p.1) ∧ ∃ v t, failures.lookup i = some v ∧
      d = .parameters t (v.messages.map fun (key, reasons) => (key.toText, reasons)) (some i) := by
  cases hd with
  | input houtline hparams =>
      obtain ⟨v, hv, hinvalid, rfl⟩ := resolveParams_eq_error.mp hparams
      obtain rfl : 0 = i := Int.ofNat.inj (Option.some.inj hi)
      have hinput : LayerType.ofTag? first.type = some .input := h.input ▸ LayerType.ofTag?_tag .input
      exact ⟨fun p _ => Nat.zero_le p.1, v, _, lookup_failing hfailures (j := 0) rfl hinput hv hinvalid, rfl⟩
  | @parameters o n record t houtline hstops hplace hparams =>
      obtain ⟨v, hv, hinvalid, rfl⟩ := resolveParams_eq_error.mp hparams
      obtain rfl : 1 + n = i := Int.ofNat.inj (Option.some.inj hi)
      obtain ⟨hrecord, htag⟩ := record_of_checkRest h.checked hplace
      refine ⟨fun p hp => ?_, v, _, ?_, rfl⟩
      · have hlt := h.lt_of_mem_failing_of_stops hfailures hp houtline hstops
        omega
      · have hlookup := lookup_failing hfailures (j := n + 1) hrecord htag hv hinvalid
        rwa [Nat.zero_add, Nat.add_comm] at hlookup
  | shape houtline hstops hplace hparams hreason =>
      subst hreason
      contradiction

/-- Only layers after one that is blamed for its shape are reported. -/
theorem reported_of_shape (h : Starts first records rest)
    (hfailures : Validation.failing 0 (first :: records) = .ok failures) {d : DesignError}
    (hd : Blamed first records rest d) (hclass : d.errorClass = .shape) {i : Nat}
    (hi : d.layerIndex = some (i : Int)) : ∀ p ∈ failures, i < p.1 := by
  cases hd with
  | input houtline hparams | parameters houtline hstops hplace hparams =>
      obtain ⟨v, _, _, rfl⟩ := resolveParams_eq_error.mp hparams
      contradiction
  | @shape o n record t params reason houtline hstops hplace hparams hreason =>
      subst hreason
      obtain rfl : 1 + n = i := Int.ofNat.inj (Option.some.inj hi)
      intro p hp
      have hlt := h.lt_of_mem_failing_of_stops hfailures hp houtline hstops
      obtain ⟨hrecord, htag⟩ := record_of_checkRest h.checked hplace
      have hne := ne_of_resolveParams hfailures (j := n + 1) hrecord htag (by rwa [Nat.add_comm] at hparams) hp
      omega

end Starts

theorem take_of_two_le {k : Nat} (hk : 2 ≤ k) :
    ∃ m, k = m + 2 ∧ (first :: records).take k = first :: records.take (m + 1) := by
  obtain ⟨m, rfl⟩ := Nat.exists_eq_add_of_le' hk
  exact ⟨m, rfl, rfl⟩

/-- The analysis of a design is decided by its first failing layer.  If the design has a plan, so has every design it
begins with, and that plan is the beginning of this one.  If it is blamed for parameters or for a shape, then at one
layer: cut short before that layer it has a plan, and cut short after it it is blamed for the same.  And the check of
all parameters, where it comes to an end, reports nothing of a design with a plan, reports first and with the same
reasons the layer that is blamed for its parameters, and reports only layers after one that is blamed for its shape. -/
theorem failure_at_first_failing_layer (h : IsDesign records) :
    (∀ plan, ofRecords records = .ok plan → ∀ k, 2 ≤ k → k ≤ records.length →
      ofRecords (records.take k) = .ok { plan with layers := plan.layers.take (k - 1) }) ∧
    (∀ d, ofRecords records = .error (.design d) → d.errorClass = .parameter ∨ d.errorClass = .shape →
      ∃ i : Nat, d.layerIndex = some (i : Int) ∧
        (∀ k, 2 ≤ k → k ≤ i → ∃ plan, ofRecords (records.take k) = .ok plan) ∧
        ∀ k, max (i + 1) 2 ≤ k → ofRecords (records.take k) = .error (.design d)) ∧
    ∀ failures, Validation.failing 0 records = .ok failures →
      (∀ plan, ofRecords records = .ok plan → failures = []) ∧
      ∀ d (i : Nat), ofRecords records = .error (.design d) → d.layerIndex = some (i : Int) →
        (d.errorClass = .parameter → (∀ p ∈ failures, i ≤ p.1) ∧ ∃ v t, failures.lookup i = some v ∧
          d = .parameters t (v.messages.map fun (key, reasons) => (key.toText, reasons)) (some i)) ∧
        (d.errorClass = .shape → ∀ p ∈ failures, i < p.1) := by
  obtain ⟨first, tail, rest, rfl, hstarts⟩ := starts_of_isDesign h
  refine ⟨?plans, ?blame, fun failures hfailures => ⟨?success, ?reports⟩⟩
  case plans =>
    intro plan hplan k hk _
    obtain ⟨m, rfl, htake⟩ := take_of_two_le hk
    rw [htake]
    exact hstarts.ofRecords_take hplan m
  case blame =>
    intro d hd _
    obtain ⟨i, hi, hbefore, hafter⟩ := hstarts.exists_layerIndex (hstarts.blamed_of_error hd)
    refine ⟨i, hi, fun k hk hle => ?_, fun k hk => ?_⟩
    · obtain ⟨m, rfl, htake⟩ := take_of_two_le hk
      exact htake ▸ hbefore m hle
    · obtain ⟨m, rfl, htake⟩ := take_of_two_le (Nat.le_trans (Nat.le_max_right _ _) hk)
      exact htake ▸ hafter m (by omega)
  case success => exact fun plan hplan => hstarts.failing_eq_nil hfailures hplan
  case reports =>
    intro d i hd hi
    have hblamed := hstarts.blamed_of_error hd
    exact ⟨fun hclass => hstarts.reported_of_parameters hfailures hblamed hclass hi,
      fun hclass => hstarts.reported_of_shape hfailures hblamed hclass hi⟩

/-- A design whose third layer is given a row but wants an image, and whose last one has no units. -/
def misfit : List LayerRecord := [
  { type := "input", params := [(.text "shape", .list [.int 4])] },
  { type := "dense", params := [(.text "units", .int 3)] },
  { type := "conv2d", params := [(.text "filters", .int 2), (.text "kernelSize", .int 3)] },
  { type := "dense", params := [(.text "units", .int 0)] }]

/-- It is blamed for the shape of the third layer, without which it has a plan; the last layer is reported besides. -/
theorem failure_of_misfit :
    IsDesign misfit ∧ (∃ plan, ofRecords (misfit.take 2) = .ok plan) ∧
      (∃ d, ofRecords misfit = .error (.design d) ∧ d.layerIndex = some 2 ∧
        ofRecords (misfit.take 3) = .error (.design d)) ∧
      ∃ failures, Validation.failing 0 misfit = .ok failures ∧ failures.map (·.1) = [3] ∧ ∀ p ∈ failures, 2 < p.1 := by
  have hdesign : IsDesign misfit := by
    refine ⟨by decide, by decide, ?_⟩
    simp only [misfit, List.tail_cons, List.forall_mem_cons]
    exact ⟨⟨.dense, by decide⟩, ⟨.conv2d, by decide⟩, ⟨.dense, by decide⟩, by simp⟩
  obtain ⟨_, hblame, hreports⟩ := failure_at_first_failing_layer hdesign
  obtain ⟨d, hd, hclass, hindex⟩ :
      ∃ d, ofRecords misfit = .error (.design d) ∧ d.errorClass = .shape ∧ d.layerIndex = some 2 := ⟨_, rfl, rfl, rfl⟩
  obtain ⟨failures, hfailures, hkeys⟩ :
      ∃ failures, Validation.failing 0 misfit = .ok failures ∧ failures.map (·.1) = [3] := ⟨_, rfl, rfl⟩
  obtain ⟨i, hi, hbefore, hafter⟩ := hblame d hd (.inr hclass)
  obtain rfl : i = 2 := Int.ofNat.inj (Option.some.inj (hi.symm.trans hindex))
  obtain ⟨_, hreported⟩ := (hreports failures hfailures).2 d 2 hd hindex
  exact ⟨hdesign, hbefore 2 (by decide) (by decide), ⟨d, hd, hindex, hafter 3 (by decide)⟩, failures, hfailures, hkeys,
    hreported hclass⟩

end LayerStack.ShapePlan
