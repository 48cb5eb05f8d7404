import SqlQuery.Proofs.Outcome
import SqlQuery.Render.Compile

/-!
Writing as a step over a draft. Two notions carry the proofs about whole queries: a step that
avoids some errors, and two steps that agree on the drafts they leave whenever both of them come
to a result.
-/

namespace SqlQuery.Rendering

variable {α β γ δ : Type} {x : Rendering α} {y : Rendering β}

/-! Errors that a step does not stop with. -/

/-- The step never stops with one of the given errors. -/
def Avoids (bad : Error → Prop) (x : Rendering α) : Prop :=
  ∀ draft e final, x.outcome draft = (.error e, final) → ¬ bad e

namespace Avoids

variable {bad : Error → Prop}

theorem pure (a : α) : Avoids bad (Pure.pure a : Rendering α) := by
  intro draft e final outcome
  cases outcome

theorem throw {e : Error} (good : ¬ bad e) :
    Avoids bad (MonadExcept.throw e : Rendering α) := by
  intro draft e' final outcome
  cases outcome
  exact good

theorem lift {result : Except Error α} (good : ∀ e, result = .error e → ¬ bad e) :
    Avoids bad (liftM result : Rendering α) := by
  intro draft e final outcome
  rw [ExceptT.outcome_lift] at outcome
  exact good e (Prod.mk.inj outcome).1

theorem newName : Avoids bad Rendering.newName := by
  intro draft e final outcome
  cases outcome

theorem define (head body : String) : Avoids bad (Rendering.define head body) := by
  intro draft e final outcome
  cases outcome

theorem bind {f : α → Rendering β} (first : Avoids bad x) (rest : ∀ a, Avoids bad (f a)) :
    Avoids bad (x >>= f) := by
  intro draft e final outcome
  rcases ExceptT.outcome_bind_eq_error.mp outcome with stopped | ⟨a, middle, _, stopped⟩
  · exact first draft e final stopped
  · exact rest a middle e final stopped

theorem map {f : α → β} (avoids : Avoids bad x) : Avoids bad (x >>= fun a => Pure.pure (f a)) :=
  avoids.bind fun a => pure (f a)

theorem lift_bind {result : Except Error α} {f : α → Rendering β}
    (good : ∀ e, result = .error e → ¬ bad e) (rest : ∀ a, result = .ok a → Avoids bad (f a)) :
    Avoids bad ((liftM result : Rendering α) >>= f) := by
  cases result with
  | error e => exact throw (good e rfl)
  | ok a => exact rest a rfl

end Avoids

/-! Steps that agree. -/

/-- The same draft or, where drafts may vary, one with no fewer names. -/
def Ahead (varied : Prop) (long short : Draft) : Prop :=
  long = short ∨ varied ∧ short.generated ≤ long.generated

/-- Whenever both steps come to a result, the first one from a draft that is ahead, it leaves a
draft that is ahead, and their results are related. -/
def Agree (varied : Prop) (R : α → β → Prop) (x : Rendering α) (y : Rendering β) : Prop :=
  ∀ long short a first b second, Ahead varied long short →
    x.outcome long = (.ok a, first) → y.outcome short = (.ok b, second) →
      Ahead varied first second ∧ R a b

namespace Agree

variable {varied : Prop} {R : α → β → Prop} {S : γ → δ → Prop}

theorem pure {a : α} {b : β} (related : R a b) :
    Agree varied R (Pure.pure a) (Pure.pure b) := by
  intro long short a' first b' second ahead left right
  cases left
  cases right
  exact ⟨ahead, related⟩

theorem throw (e : Error) (y : Rendering β) :
    Agree varied R (MonadExcept.throw e : Rendering α) y := by
  intro long short a first b second ahead left right
  cases left

theorem lift {left : Except Error α} {right : Except Error β}
    (related : ∀ a b, left = .ok a → right = .ok b → R a b) :
    Agree varied R (liftM left : Rendering α) (liftM right : Rendering β) := by
  intro long short a first b second ahead leftOk rightOk
  rw [ExceptT.outcome_lift] at leftOk rightOk
  cases left with
  | error e => cases leftOk
  | ok a' =>
      cases right with
      | error e => cases rightOk
      | ok b' =>
          cases leftOk
          cases rightOk
          exact ⟨ahead, related a b rfl rfl⟩

theorem bind {f : α → Rendering γ} {g : β → Rendering δ} (first : Agree varied R x y)
    (rest : ∀ a b, R a b → Agree varied S (f a) (g b)) :
    Agree varied S (x >>= f) (y >>= g) := by
  intro long short c firstDraft d secondDraft ahead left right
  obtain ⟨a, leftMiddle, leftFirst, leftRest⟩ := ExceptT.outcome_bind_eq_ok.mp left
  obtain ⟨b, rightMiddle, rightFirst, rightRest⟩ := ExceptT.outcome_bind_eq_ok.mp right
  obtain ⟨still, related⟩ := first long short a leftMiddle b rightMiddle ahead leftFirst rightFirst
  exact rest a b related leftMiddle rightMiddle c firstDraft d secondDraft still leftRest rightRest

theorem mono {R' : α → β → Prop} (agree : Agree varied R x y) (imp : ∀ a b, R a b → R' a b) :
    Agree varied R' x y := by
  intro long short a first b second ahead left right
  obtain ⟨still, related⟩ := agree long short a first b second ahead left right
  exact ⟨still, imp a b related⟩

/-- From one draft a step comes to one result, so it is the drafts that vary that matter. -/
theorem self {R : α → α → Prop} (refl : ∀ a, R a a) (vary : varied → Agree varied R x x) :
    Agree varied R x x := by
  intro long short a first b second ahead left right
  rcases ahead with rfl | ⟨may, fewer⟩
  · rw [left] at right
    cases right
    exact ⟨.inl rfl, refl a⟩
  · exact vary may long short a first b second (.inr ⟨may, fewer⟩) left right

theorem define (may : varied) (head body head' body' : String) :
    Agree varied (fun _ _ => True) (Rendering.define head body)
      (Rendering.define head' body') := by
  intro long short a first b second ahead left right
  cases left
  cases right
  rcases ahead with rfl | ⟨-, fewer⟩
  · exact ⟨.inr ⟨may, Nat.le_refl _⟩, trivial⟩
  · exact ⟨.inr ⟨may, fewer⟩, trivial⟩

/-- The first step may generate a name that the second one does without. -/
theorem newName_left (may : varied) {f : String → Rendering α}
    (rest : ∀ name, Agree varied R (f name) y) : Agree varied R (Rendering.newName >>= f) y := by
  intro long short a first b second ahead left right
  refine rest _ { long with generated := long.generated + 1 } short a first b second ?_ left right
  rcases ahead with rfl | ⟨-, fewer⟩
  · exact .inr ⟨may, Nat.le_succ _⟩
  · exact .inr ⟨may, Nat.le_succ_of_le fewer⟩

end Agree

end SqlQuery.Rendering

namespace SqlQuery.Node

variable {depth : Nat} {store : Store} {settings : Settings} {node : Node}

theorem renderRoot_value {ids : Identities} (links : Links) (ctx : Context) {e : Expr}
    (notCode : ∀ sql, e ≠ .code sql) :
    (Node.expr e).renderRoot links ctx ids = (do
      discard (Rendering.draw ids)
      let sql ← selectText ctx.dialect false none
        (do return [← e.render links (ctx.placed true ctx.inJoin) ids])
        (return ctx.dialect.placeholderTable) (return []) (return []) (return []) (return [])
      ctx.enclose sql) := by
  cases e with
  | code sql => exact absurd rfl (notCode sql)
  | _ => rfl

theorem renderRoot_expr (links : Links) (ctx : Context) {e : Expr}
    (notCode : ∀ sql, e ≠ .code sql) :
    (Node.expr e).renderRoot links ctx = (do
      let sql ← selectText ctx.dialect false none
        (do return [← e.render links (ctx.placed true ctx.inJoin)])
        (return ctx.dialect.placeholderTable) (return []) (return []) (return []) (return [])
      ctx.enclose sql) :=
  renderRoot_value links ctx notCode

theorem compileWithin_eq (depth : Nat) (store : Store) (settings : Settings) (node : Node) :
    node.compileWithin depth store settings =
      match (node.renderRoot (settings.links store depth) settings.context).outcome {} with
      | (.ok body, draft) => .ok (draft.withClause body)
      | (.error e, _) => .error e :=
  rfl

theorem compileWithin_eq_ok {sql : String} :
    node.compileWithin depth store settings = .ok sql ↔
      ∃ body draft, (node.renderRoot (settings.links store depth) settings.context).outcome {} =
        (.ok body, draft) ∧ sql = draft.withClause body := by
  rw [compileWithin_eq]
  rcases (node.renderRoot (settings.links store depth) settings.context).outcome {} with
    ⟨e | body, draft⟩
  · simp
  · constructor
    · intro compiled
      cases compiled
      exact ⟨body, draft, rfl, rfl⟩
    · rintro ⟨body', draft', same, rfl⟩
      cases same
      rfl

theorem compileWithin_eq_error {e : Error} :
    node.compileWithin depth store settings = .error e ↔
      ∃ draft, (node.renderRoot (settings.links store depth) settings.context).outcome {} =
        (.error e, draft) := by
  rw [compileWithin_eq]
  rcases (node.renderRoot (settings.links store depth) settings.context).outcome {} with
    ⟨e' | body, draft⟩
  · simp
  · simp

end SqlQuery.Node

/-! The tables of the examples. -/

namespace SqlQuery.Path

def orders : Path := ⟨["orders"], by decide, by decide⟩

def refunds : Path := ⟨["refunds"], by decide, by decide⟩

end SqlQuery.Path
