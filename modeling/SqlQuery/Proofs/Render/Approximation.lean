import SqlQuery.Proofs.Render.Congruence

/-!
More links change no text that has been finished: along fewer links, a query has the same outcome or
none yet.
-/

namespace SqlQuery

namespace Rendering

variable {α : Type}

/-- The first step has the outcome of the second one, or runs out of links. -/
def Approximates (x y : Rendering α) : Prop :=
  ∀ draft, x.outcome draft = y.outcome draft ∨ (x.outcome draft).1 = .error .unending

theorem Approximates.refl (x : Rendering α) : Approximates x x :=
  fun _ => .inl rfl

theorem Approximates.unending (y : Rendering α) : Approximates (throw .unending) y :=
  fun _ => .inr rfl

theorem Approximates.congruence : Congruence fun _ => Approximates where
  refl := .refl
  bind {α β x y f g} first rest := by
    intro draft
    rcases outcome : x.outcome draft with ⟨e | a, middle⟩
    · rw [ExceptT.outcome_bind_of_error outcome]
      rcases first draft with same | ended
      · rw [outcome] at same
        exact .inl (ExceptT.outcome_bind_of_error same.symm).symm
      · rw [outcome] at ended
        cases ended
        exact .inr rfl
    · rcases first draft with same | ended
      · rw [outcome] at same
        rw [ExceptT.outcome_bind_of_ok outcome, ExceptT.outcome_bind_of_ok same.symm]
        exact rest draft a middle outcome middle
      · rw [outcome] at ended
        cases ended

end Rendering

open Rendering (Approximates)

structure Links.Approximate (links more : Links) : Prop where
  placeholder : ∀ id name ctx,
    Approximates (links.placeholder id name ctx) (more.placeholder id name ctx)
  param : ∀ name ctx, Approximates (links.param name ctx) (more.param name ctx)

theorem Links.Approximate.related {links more : Links} (linked : links.Approximate more)
    (outer : Scope) (steps : List Step) :
    links.Related (fun _ => Approximates) more outer steps :=
  Links.related_of_forall linked.placeholder linked.param steps

/-! Along a number of links. -/

theorem Settings.links_approximate (store : Store) (settings : Settings) (depth : Nat) :
    (settings.links store depth).Approximate (settings.links store (depth + 1)) := by
  induction depth with
  | zero =>
      constructor
      · intro id name ctx
        simp only [links, Store.resolve]
        cases store.binding? id with
        | none => exact .refl _
        | some e => exact .unending _
      · intro name ctx
        simp only [links]
        cases settings.param name with
        | error e => exact .refl _
        | ok node => exact .unending _
  | succ depth ih =>
      constructor
      · intro id name ctx
        apply Approximates.congruence.each (.refl _)
        intro e
        exact Approximates.congruence.render (.expr e) ctx (ih.related _ _)
      · intro name ctx
        apply Approximates.congruence.each (.refl _)
        intro node
        exact Approximates.congruence.render node ctx (ih.related _ _)

theorem Node.compileWithin_succ {depth : Nat} {store : Store} {settings : Settings} {node : Node}
    (ended : node.compileWithin depth store settings ≠ .error .unending) :
    node.compileWithin (depth + 1) store settings = node.compileWithin depth store settings := by
  have approximates := Approximates.congruence.renderRoot node settings.context
    ((settings.links_approximate store depth).related _ _)
  rcases approximates {} with same | unending
  · rw [Node.compileWithin_eq, Node.compileWithin_eq, same]
  · rcases outcome : (node.renderRoot (settings.links store depth) settings.context).outcome {} with
      ⟨result, draft⟩
    rw [outcome] at unending
    cases unending
    exact absurd (Node.compileWithin_eq_error.mpr ⟨draft, outcome⟩) ended

theorem Node.compileWithin_of_le {depth more : Nat} {store : Store} {settings : Settings}
    {node : Node} (le : depth ≤ more)
    (ended : node.compileWithin depth store settings ≠ .error .unending) :
    node.compileWithin more store settings = node.compileWithin depth store settings := by
  induction le with
  | refl => rfl
  | step _ ih =>
      rw [Node.compileWithin_succ (by rwa [ih]), ih]

end SqlQuery
