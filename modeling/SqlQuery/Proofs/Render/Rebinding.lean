import SqlQuery.Proofs.Render.Congruence
import SqlQuery.Proofs.Render.Termination

/-!
Texts in two stores that bind some placeholders to columns of the same name in different relations.
The texts are the same as long as no alias comes before such a column.
-/

namespace SqlQuery

/-- The columns of a relation are written by their names alone. -/
def Scope.Plain (scope : Scope) (owner : RelationId) : Prop :=
  scope.length ≤ 1 ∨ scope.covering owner = 0

theorem Context.column_of_plain {ctx : Context} {owner : RelationId}
    (plain : ctx.scope.Plain owner) (name : String) :
    ctx.column owner name = .ok (ctx.quote name) := by
  have none : ScopedAlias.candidates ctx.aliases owner = [] := by
    rw [ScopedAlias.candidates]
    split
    · rfl
    · next many =>
        rcases plain with few | uncovered
        · rw [Context.scope, ScopedAlias.length_scope] at few
          exact absurd few many
        · rw [Context.scope, ScopedAlias.covering_scope] at uncovered
          exact List.eq_nil_of_length_eq_zero uncovered
  rw [Context.column_eq_columnAfter, none]
  rfl

/-- Two stores that differ in the relations whose columns some placeholders are bound to. -/
structure Store.Rebound (own : PlaceholderId → Prop) (left right : Store) : Prop where
  other : ∀ id, ¬ own id → left.binding? id = right.binding? id
  renamed : ∀ id, own id → ∃ c d : Column, left.binding? id = some (.column c) ∧
    right.binding? id = some (.column d) ∧ c.name = d.name

namespace Mention

/-- Not one of the placeholders in question. -/
def Foreign (own : PlaceholderId → Prop) (m : Mention) : Prop :=
  ∀ id, m = .placeholder id → ¬ own id

/-- The column that a placeholder is bound to in a store is written by its name alone. -/
def Plain (store : Store) (scope : Scope) (m : Mention) : Prop :=
  ∀ id c, m = .placeholder id → store.binding? id = some (.column c) → scope.Plain c.source.id

theorem foreign_or_own (own : PlaceholderId → Prop) (m : Mention) :
    m.Foreign own ∨ ∃ id, m = .placeholder id ∧ own id := by
  by_cases isOwn : ∃ id, m = .placeholder id ∧ own id
  · exact .inr isOwn
  · exact .inl fun id same isOwn' => isOwn ⟨id, same, isOwn'⟩

end Mention

theorem Node.mentions_of_mem_trace {node : Node} {step : Step} {m : Mention} {name : String}
    (listed : step ∈ node.trace) (event : step.event = .link m name) : node.Mentions m := by
  have belongs := Node.belongs_of_mem_trace listed
  rw [event] at belongs
  exact belongs

/-- Wherever some placeholders stand in a node, also in the queries in it, the columns that two
stores bind them to are written by their names alone. -/
def Node.PlainIn (own : PlaceholderId → Prop) (left right : Store) (node : Node) : Prop :=
  ∀ step ∈ node.trace, ∀ m name, step.event = .link m name →
    m.Foreign own ∨ (m.Plain left (step.scope []) ∧ m.Plain right (step.scope []))

/-- What a trace of an expression lists stands outside of every alias, inside of a query that the
expression is, or in one of its children. -/
theorem Expr.mem_trace_cases {e : Expr} {step : Step} (listed : step ∈ e.trace) :
    step.scope [] = [] ∨ (∃ r, e = .subquery r ∧ step ∈ r.trace) ∨
      ∃ c ∈ e.children, step ∈ c.trace := by
  cases e with
  | column c =>
      cases List.mem_singleton.mp listed
      exact .inl rfl
  | placeholder id name =>
      cases List.mem_singleton.mp listed
      exact .inl rfl
  | param name =>
      cases List.mem_singleton.mp listed
      exact .inl rfl
  | subquery r => exact .inr (.inl ⟨r, rfl, listed⟩)
  | concat items separator =>
      rw [Expr.trace] at listed
      split at listed
      · cases List.mem_singleton.mp listed
        exact .inl rfl
      · rw [Expr.traceOfAll_eq_flatMap, List.mem_flatMap] at listed
        exact .inr (.inr listed)
  | count argument distinct =>
      cases argument with
      | none => cases listed
      | some e => exact .inr (.inr ⟨e, List.mem_singleton_self e, listed⟩)
  | case c =>
      obtain ⟨branches, otherwise⟩ := c
      rw [Expr.trace] at listed
      split at listed
      · cases List.mem_singleton.mp listed
        exact .inl rfl
      · rw [Expr.traceOfBranches_eq_flatMap, Expr.traceOfElse_eq_flatMap, ← List.flatMap_append,
          List.mem_flatMap] at listed
        exact .inr (.inr listed)
  | call function arguments =>
      rw [Expr.trace, Expr.traceOfAll_eq_flatMap, List.mem_flatMap] at listed
      exact .inr (.inr listed)
  | binary operator arguments =>
      rw [Expr.trace, Expr.traceOfAll_eq_flatMap, List.mem_flatMap] at listed
      exact .inr (.inr listed)
  | isIn e list =>
      rw [Expr.trace, Expr.traceOfAll_eq_flatMap, ← List.flatMap_cons, List.mem_flatMap] at listed
      exact .inr (.inr listed)
  | isDistinctFrom left right =>
      rw [Expr.trace, List.mem_append] at listed
      rcases listed with inLeft | inRight
      · exact .inr (.inr ⟨left, List.mem_cons_self, inLeft⟩)
      · exact .inr (.inr ⟨right, List.mem_cons_of_mem _ (List.mem_singleton_self _), inRight⟩)
  | aliased e name => exact .inr (.inr ⟨e, List.mem_singleton_self e, listed⟩)
  | negate e => exact .inr (.inr ⟨e, List.mem_singleton_self e, listed⟩)
  | cast e type => exact .inr (.inr ⟨e, List.mem_singleton_self e, listed⟩)
  | _ => cases listed

section

variable {own : PlaceholderId → Prop} {left right : Store} {settings : Settings}

theorem Node.PlainIn.of_foreign {node : Node}
    (foreign : node.MentionsOnly (Mention.Foreign own)) : node.PlainIn own left right :=
  fun _ listed m _ event => .inl (foreign m (Node.mentions_of_mem_trace listed event))

/-- Outside of the queries in an expression no alias is in scope. -/
theorem Expr.plainIn_of_apart {e : Expr}
    (apart : ∀ r, Expr.subquery r ∈ e.walk → r.MentionsOnly (Mention.Foreign own)) :
    (Node.expr e).PlainIn own left right := by
  simp only [Expr.mem_walk] at apart
  induction e using Expr.children_induction with
  | step e ih =>
      intro step listed m name event
      rcases Expr.mem_trace_cases listed with bare | ⟨r, rfl, inQuery⟩ | ⟨c, child, inChild⟩
      · have short : (step.scope []).length ≤ 1 := by simp [bare]
        exact .inr ⟨fun _ _ _ _ => .inl short, fun _ _ _ _ => .inl short⟩
      · have plain : (Node.relation r).PlainIn own left right := .of_foreign (apart r .self)
        exact plain step inQuery m name event
      · exact ih c child (fun r within => apart r (.child child within)) step inChild m name event

theorem Store.Rebound.behind (rebound : left.Rebound own right) {m : Mention}
    (foreign : m.Foreign own) : settings.behind left m = settings.behind right m := by
  cases m with
  | placeholder id => simp only [Settings.behind, rebound.other id (foreign id rfl)]
  | _ => rfl

/-- If the values of placeholders and parameters mention none of the placeholders in question, then
only these can make a difference, and they make none where they are written by name alone. -/
theorem Store.Rebound.follow (rebound : left.Rebound own right)
    (values : ∀ node ∈ settings.values left, node.MentionsOnly (Mention.Foreign own))
    (depth : Nat) {m : Mention} {ctx : Context} (name : String)
    (plain : m.Foreign own ∨ (m.Plain left ctx.scope ∧ m.Plain right ctx.scope)) :
    (settings.links left depth).follow name m ctx =
      (settings.links right depth).follow name m ctx := by
  induction depth generalizing m ctx name with
  | zero =>
      rw [Settings.follow_zero, Settings.follow_zero]
      rcases m.foreign_or_own own with foreign | ⟨id, rfl, isOwn⟩
      · rw [rebound.behind foreign]
      · obtain ⟨c, d, inLeft, inRight, _⟩ := rebound.renamed id isOwn
        simp only [Settings.behind, inLeft, inRight, Option.map_some]
  | succ depth ih =>
      rw [Settings.follow_succ, Settings.follow_succ]
      rcases m.foreign_or_own own with foreign | ⟨id, rfl, isOwn⟩
      · rw [← rebound.behind foreign]
        cases behind : settings.behind left m with
        | none => rfl
        | some node =>
            apply Rendering.Congruence.eq.render
            intro step inTrace
            cases event : step.event with
            | link m' name' =>
                intro ctx' _
                have listed := Settings.mem_values_of_behind behind
                have mentioned := Node.mentions_of_mem_trace inTrace event
                exact ih name' (.inl (values node listed m' mentioned))
            | _ => trivial
      · obtain ⟨c, d, inLeft, inRight, sameName⟩ := rebound.renamed id isOwn
        rcases plain with foreign | ⟨plainLeft, plainRight⟩
        · exact absurd isOwn (foreign id rfl)
        · simp only [Settings.behind, inLeft, inRight, Option.map_some]
          change (liftM (ctx.column c.source.id c.name) : Rendering String) =
            liftM (ctx.column d.source.id d.name)
          rw [Context.column_of_plain (plainLeft id c rfl inLeft),
            Context.column_of_plain (plainRight id d rfl inRight), sameName]

theorem Node.compileWithin_rebound (rebound : left.Rebound own right)
    (values : ∀ node ∈ settings.values left, node.MentionsOnly (Mention.Foreign own))
    {node : Node} (plain : node.PlainIn own left right) (depth : Nat) :
    node.compileWithin depth left settings = node.compileWithin depth right settings := by
  have same : node.renderRoot (settings.links left depth) settings.context =
      node.renderRoot (settings.links right depth) settings.context := by
    apply Rendering.Congruence.eq.renderRoot
    intro step listed
    have plain := plain step listed
    cases event : step.event with
    | link m name =>
        intro ctx scope
        apply rebound.follow values
        rw [scope]
        exact plain m name event
    | _ => trivial
  rw [Node.compileWithin_eq, Node.compileWithin_eq, same]

end

end SqlQuery
