/-!
What a step that may fail gives from a state: its result, or the error that stopped it, and the
state after it.
-/

namespace Except

theorem bind_eq_ok {ε α β : Type} {x : Except ε α} {f : α → Except ε β} {b : β} :
    x >>= f = .ok b ↔ ∃ a, x = .ok a ∧ f a = .ok b := by
  cases x <;> simp [bind, Except.bind]

end Except

namespace ExceptT

variable {ε σ α β : Type} {x : ExceptT ε (StateM σ) α}

def outcome (x : ExceptT ε (StateM σ) α) (state : σ) : Except ε α × σ :=
  x.run.run state

theorem ext_outcome {x y : ExceptT ε (StateM σ) α}
    (same : ∀ state, x.outcome state = y.outcome state) : x = y :=
  funext same

@[simp] theorem outcome_pure (a : α) (state : σ) :
    (pure a : ExceptT ε (StateM σ) α).outcome state = (.ok a, state) := rfl

@[simp] theorem outcome_throw (e : ε) (state : σ) :
    (throw e : ExceptT ε (StateM σ) α).outcome state = (.error e, state) := rfl

@[simp] theorem outcome_lift (result : Except ε α) (state : σ) :
    (liftM result : ExceptT ε (StateM σ) α).outcome state = (result, state) := rfl

@[simp] theorem outcome_adapt {ε' : Type} (f : ε → ε') (state : σ) :
    (ExceptT.adapt f x).outcome state = ((x.outcome state).1.mapError f, (x.outcome state).2) :=
  rfl

theorem outcome_bind_of_ok {f : α → ExceptT ε (StateM σ) β} {state middle : σ} {a : α}
    (first : x.outcome state = (.ok a, middle)) :
    (x >>= f).outcome state = (f a).outcome middle := by
  change (x >>= f).run.run state = _
  have run : x.run.run state = (.ok a, middle) := first
  simp only [ExceptT.run_bind, StateT.run_bind, run]
  rfl

theorem outcome_bind_of_error {f : α → ExceptT ε (StateM σ) β} {state middle : σ} {e : ε}
    (first : x.outcome state = (.error e, middle)) :
    (x >>= f).outcome state = (.error e, middle) := by
  change (x >>= f).run.run state = _
  have run : x.run.run state = (.error e, middle) := first
  simp only [ExceptT.run_bind, StateT.run_bind, run]
  rfl

theorem outcome_bind_eq_ok {f : α → ExceptT ε (StateM σ) β} {state final : σ} {b : β} :
    (x >>= f).outcome state = (.ok b, final) ↔
      ∃ a middle, x.outcome state = (.ok a, middle) ∧ (f a).outcome middle = (.ok b, final) := by
  constructor
  · intro whole
    rcases first : x.outcome state with ⟨e | a, middle⟩
    · rw [outcome_bind_of_error first] at whole
      cases whole
    · rw [outcome_bind_of_ok first] at whole
      exact ⟨a, middle, rfl, whole⟩
  · rintro ⟨a, middle, first, second⟩
    rw [outcome_bind_of_ok first, second]

theorem outcome_bind_eq_error {f : α → ExceptT ε (StateM σ) β} {state final : σ} {e : ε} :
    (x >>= f).outcome state = (.error e, final) ↔
      x.outcome state = (.error e, final) ∨
        ∃ a middle, x.outcome state = (.ok a, middle) ∧
          (f a).outcome middle = (.error e, final) := by
  rcases first : x.outcome state with ⟨e' | a, middle⟩
  · rw [outcome_bind_of_error first]
    simp
  · rw [outcome_bind_of_ok first]
    constructor
    · intro stopped
      exact .inr ⟨a, middle, rfl, stopped⟩
    · rintro (impossible | ⟨a', middle', same, stopped⟩)
      · cases impossible
      · cases same
        exact stopped

theorem discard_eq_bind : discard x = x >>= fun _ => pure () := by
  rw [bind_pure_comp]
  rfl

theorem outcome_discard_eq_ok {state final : σ} :
    (discard x).outcome state = (.ok (), final) ↔ ∃ a, x.outcome state = (.ok a, final) := by
  rw [discard_eq_bind, outcome_bind_eq_ok]
  constructor
  · intro passed
    obtain ⟨a, _, passed, ⟨⟩⟩ := passed
    exact ⟨a, passed⟩
  · intro passed
    obtain ⟨a, passed⟩ := passed
    exact ⟨a, final, passed, rfl⟩

theorem outcome_discard_eq_error {state final : σ} {e : ε} :
    (discard x).outcome state = (.error e, final) ↔ x.outcome state = (.error e, final) := by
  rw [discard_eq_bind, outcome_bind_eq_error]
  constructor
  · intro failed
    obtain failed | ⟨_, _, _, ⟨⟩⟩ := failed
    exact failed
  · exact .inl

/-! Loops. -/

theorem outcome_forM_cons (body : α → ExceptT ε (StateM σ) PUnit) (a : α) (rest : List α)
    (state : σ) :
    ((a :: rest).forM body).outcome state = (body a >>= fun _ => rest.forM body).outcome state :=
  rfl

theorem outcome_forM_cons_eq_ok {body : α → ExceptT ε (StateM σ) PUnit} {a : α} {rest : List α}
    {state final : σ} :
    ((a :: rest).forM body).outcome state = (.ok (), final) ↔
      ∃ middle, (body a).outcome state = (.ok (), middle) ∧
        (rest.forM body).outcome middle = (.ok (), final) := by
  rw [outcome_forM_cons, outcome_bind_eq_ok]
  constructor
  · intro ran
    obtain ⟨_, ran⟩ := ran
    exact ran
  · intro ran
    exact ⟨(), ran⟩

/-- A loop fails if and only if one of its items fails after those before it have passed. -/
theorem outcome_forM_eq_error {body : α → ExceptT ε (StateM σ) PUnit} {items : List α}
    {state final : σ} {e : ε} :
    (items.forM body).outcome state = (.error e, final) ↔
      ∃ done a rest middle, items = done ++ a :: rest ∧
        (done.forM body).outcome state = (.ok (), middle) ∧
        (body a).outcome middle = (.error e, final) := by
  induction items generalizing state with
  | nil =>
      constructor
      · intro failed
        cases failed
      · rintro ⟨done, a, rest, _, split, _⟩
        simp at split
  | cons first items ih =>
      rw [outcome_forM_cons, outcome_bind_eq_error]
      constructor
      · rintro (failed | ⟨_, middle, passed, failed⟩)
        · exact ⟨[], first, items, state, rfl, rfl, failed⟩
        · obtain ⟨done, a, rest, later, rfl, others, failed⟩ := ih.mp failed
          exact ⟨first :: done, a, rest, later, rfl,
            outcome_forM_cons_eq_ok.mpr ⟨middle, passed, others⟩, failed⟩
      · rintro ⟨done, a, rest, later, split, passed, failed⟩
        cases done with
        | nil =>
            cases split
            cases passed
            exact .inl failed
        | cons _ done =>
            cases split
            obtain ⟨middle, passed, others⟩ := outcome_forM_cons_eq_ok.mp passed
            exact .inr ⟨(), middle, passed, ih.mpr ⟨done, a, rest, later, rfl, others, failed⟩⟩

/-- Two continuations are as good as each other after a step if they are the same on each of its
results. -/
theorem bind_congr_of_outcome {f g : α → ExceptT ε (StateM σ) β}
    (same : ∀ state a final, x.outcome state = (.ok a, final) → f a = g a) :
    x >>= f = x >>= g := by
  apply ext_outcome
  intro state
  rcases first : x.outcome state with ⟨e | a, middle⟩
  · rw [outcome_bind_of_error first, outcome_bind_of_error first]
  · rw [outcome_bind_of_ok first, outcome_bind_of_ok first, same state a middle first]

end ExceptT
