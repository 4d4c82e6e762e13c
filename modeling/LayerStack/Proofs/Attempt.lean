import LayerStack.Proofs.Outcome

/-!
# LayerStack.Proofs.Attempt

Operations that may fail, and keep what they have done so far.

An operation that fails stops those behind it (`run_bind`).  What an operation leaves is related to what it found, and
`Keeps` says so for every outcome.
-/

namespace LayerStack

/-! ## Operations in turn -/

namespace Attempt

variable {ε σ β γ : Type} {x : ExceptT ε (StateM σ) β} {f : β → ExceptT ε (StateM σ) γ} {s s' : σ} {b : β} {c : γ} {e : ε}

theorem run_bind (x : ExceptT ε (StateM σ) β) (f : β → ExceptT ε (StateM σ) γ) (s : σ) : (x >>= f) s =
    match x s with
    | (.ok b, s') => f b s'
    | (.error e, s') => (.error e, s') := by
  show ExceptT.bindCont f (x s).1 (x s).2 = _
  rcases x s with ⟨_ | _, _⟩ <;> rfl

/-- Operations in turn have a result where each of them has one. -/
theorem bind_eq_ok {s'' : σ} :
    (x >>= f) s = (.ok c, s'') ↔ ∃ b s', x s = (.ok b, s') ∧ f b s' = (.ok c, s'') := by
  rw [run_bind]
  rcases x s with ⟨e | b, s'⟩
  · constructor
    · intro h
      cases h
    · rintro ⟨b, s', h, _⟩
      cases h
  · constructor
    · intro h
      exact ⟨b, s', rfl, h⟩
    · rintro ⟨b', s₁, h, hf⟩
      cases h
      exact hf

theorem run_pure (b : β) (s : σ) : (pure b : ExceptT ε (StateM σ) β) s = (.ok b, s) := rfl

theorem pure_eq_ok {b' : β} : (pure b : ExceptT ε (StateM σ) β) s = (.ok b', s') ↔ b = b' ∧ s = s' := by
  rw [run_pure, Prod.mk.injEq, Except.ok.injEq]

/-- What fails is not gone on with. -/
theorem throw_bind (e : ε) (f : β → ExceptT ε (StateM σ) γ) : (throw e >>= f) = throw e := rfl

theorem run_get (s : σ) : (get : ExceptT ε (StateM σ) σ) s = (.ok s, s) := rfl

theorem run_modify (f : σ → σ) (s : σ) : (modify f : ExceptT ε (StateM σ) PUnit) s = (.ok ⟨⟩, f s) := rfl

theorem run_tryCatch (x : ExceptT ε (StateM σ) β) (f : ε → ExceptT ε (StateM σ) β) (s : σ) : (tryCatch x f) s =
    match x s with
    | (.ok b, s') => (.ok b, s')
    | (.error e, s') => f e s' := by
  unfold tryCatch instMonadExceptOfMonadExceptOf
  simp only [tryCatchThe, MonadExceptOf.tryCatch, ExceptT.tryCatch, ExceptT.mk]
  rw [LayerStack.run_bind]
  rcases x s with ⟨_ | _, _⟩ <;> rfl

/-! ## What is kept -/

/-- Whatever comes of an operation, a relation holds between what it found and what it left. -/
def Keeps (T : σ → σ → Prop) (x : ExceptT ε (StateM σ) β) : Prop := ∀ s, T s (x s).2

variable {T : σ → σ → Prop}

theorem Keeps.of_eq {result : Except ε β} (h : Keeps T x) (hx : x s = (result, s')) : T s s' := by
  have hkept := h s
  rwa [hx] at hkept

theorem keeps_pure (hrefl : ∀ s, T s s) (b : β) : Keeps T (pure b : ExceptT ε (StateM σ) β) := hrefl

theorem keeps_throw (hrefl : ∀ s, T s s) (e : ε) : Keeps T (throw e : ExceptT ε (StateM σ) β) := hrefl

/-- What is kept is seen where the first operation ends, or from there on. -/
theorem keeps_bind_run (hstop : ∀ s e s', x s = (.error e, s') → T s s')
    (hgo : ∀ s b s', x s = (.ok b, s') → T s (f b s').2) : Keeps T (x >>= f) := by
  intro s
  rw [run_bind]
  rcases hx : x s with ⟨e | b, s'⟩
  · exact hstop s e s' hx
  · exact hgo s b s' hx

/-- What the first operation keeps and what is kept behind it come together. -/
theorem keeps_bind_of {R S : σ → σ → Prop} (hstop : ∀ {s s'}, R s s' → T s s')
    (hgo : ∀ {s s' s''}, R s s' → S s' s'' → T s s'') (hx : Keeps R x) (hf : ∀ b, Keeps S (f b)) : Keeps T (x >>= f) := by
  refine keeps_bind_run (fun s e s' hrun => ?_) fun s b s' hrun => ?_
  · exact hstop (hx.of_eq hrun)
  · exact hgo (hx.of_eq hrun) (hf b s')

/-- What is kept is kept if nothing is changed behind it. -/
theorem keeps_bind_eq (hx : Keeps T x) (hf : ∀ b, Keeps Eq (f b)) : Keeps T (x >>= f) :=
  keeps_bind_of (S := Eq) id (fun hfirst hrest => hrest ▸ hfirst) hx hf

theorem keeps_bind (htrans : ∀ {s s' s''}, T s s' → T s' s'' → T s s'') (hx : Keeps T x) (hf : ∀ b, Keeps T (f b)) :
    Keeps T (x >>= f) := keeps_bind_of id htrans hx hf

theorem keeps_get (hrefl : ∀ s, T s s) : Keeps T (get : ExceptT ε (StateM σ) σ) := hrefl

theorem keeps_discard (hrefl : ∀ s, T s s) (htrans : ∀ {s s' s''}, T s s' → T s' s'' → T s s'') (hx : Keeps T x) :
    Keeps T (discard x) :=
  keeps_bind htrans hx fun _ => keeps_pure hrefl _

theorem keeps_tryCatch (htrans : ∀ {s s' s''}, T s s' → T s' s'' → T s s'') {f : ε → ExceptT ε (StateM σ) β}
    (hx : Keeps T x) (hf : ∀ e, Keeps T (f e)) : Keeps T (tryCatch x f) := by
  intro s
  have hfirst := hx s
  rw [run_tryCatch]
  generalize x s = r at hfirst
  rcases r with ⟨e | b, s'⟩
  · exact htrans hfirst (hf e s')
  · exact hfirst

/-! ## What is ignored -/

/-- A change of the state makes no difference to an operation, nor the operation to the change. -/
def Ignores (g : σ → σ) (x : ExceptT ε (StateM σ) β) : Prop := ∀ s, x (g s) = ((x s).1, g (x s).2)

variable {g : σ → σ}

theorem ignores_pure (b : β) : Ignores g (pure b : ExceptT ε (StateM σ) β) := fun _ => rfl

theorem ignores_throw (e : ε) : Ignores g (throw e : ExceptT ε (StateM σ) β) := fun _ => rfl

theorem ignores_bind (hx : Ignores g x) (hf : ∀ b, Ignores g (f b)) : Ignores g (x >>= f) := by
  intro s
  rw [run_bind, run_bind, hx s]
  rcases x s with ⟨e | b, s'⟩
  · rfl
  · exact hf b s'

end Attempt

end LayerStack
