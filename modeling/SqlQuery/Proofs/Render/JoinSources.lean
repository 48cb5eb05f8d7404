import SqlQuery.Dialect.DuckDB
import SqlQuery.Proofs.Render.Growth

/-!
The sources of a join and the aliases around them.
-/

namespace SqlQuery

theorem disturbances_eq_zero {scope : Scope} {occurrences : List Occurrence} :
    disturbances scope occurrences = 0 ↔ Quiet scope occurrences := by
  simp [disturbances, Quiet, List.countP_eq_zero]

theorem Dialect.duckDB_growing : Dialect.duckDB.Growing where
  toText _ _ _ grown := grown.append (.refl "::VARCHAR")
  concat _ _ _ grown := (grown.intercalate ", ").around "concat(" ")"
  isDistinctFrom _ _ _ _ _ _ left right := (left.append (.refl " is distinct from ")).append right
  explain _ _ _ grown := grown.after "EXPLAIN "

/-- What stands among the sources of a join has the text that it has alone if the aliases of the
join and those around it disturb none of its columns; and only then, where it has a text alone. -/
theorem joinSource_text_iff (store : Store) (settings : Settings) (depth : Nat) (ctx : Context)
    (j : Join) (r : Relation) {aliases : List ScopedAlias} {before after : Draft}
    (named : (joinAliases j.sources).outcome before = (.ok aliases, after)) :
    let links := settings.links store depth
    let quiet := Quiet (ScopedAlias.scope ctx.aliases ++ joinScope j.sources)
      (r.occurrences (settings.reach store depth) [])
    (quiet → r.render links (ctx.joined aliases) = r.render links ((ctx.joined aliases).under [])) ∧
      ∀ draft text final, ctx.dialect.Growing →
        (r.render links ((ctx.joined aliases).under [])).outcome draft = (.ok text, final) →
          ((r.render links (ctx.joined aliases)).outcome draft = (.ok text, final) ↔ quiet) := by
  intro links quiet
  have outer : ctx.joined aliases =
      (ctx.placed false true).under ((ctx.aliases ++ aliases) ++ []) := by
    rw [List.append_nil]
    rfl
  have owners : ScopedAlias.scope (ctx.aliases ++ aliases) =
      ScopedAlias.scope ctx.aliases ++ joinScope j.sources := by
    rw [ScopedAlias.scope_append, scope_of_joinAliases named]
  have kept : quiet →
      r.render links (ctx.joined aliases) = r.render links ((ctx.joined aliases).under []) := by
    intro undisturbed
    have linked := settings.links_kept store (ctx.aliases ++ aliases) depth
    rw [outer]
    exact linked.induction.relation r (ctx.placed false true) [] (owners ▸ undisturbed)
  refine ⟨kept, ?_⟩
  intro draft text final growing alone
  constructor
  · intro same
    have linked := settings.links_grow False store depth
    let both : Stretch False :=
      { short := (ctx.joined aliases).under []
        outer := ctx.aliases ++ aliases
        inner := []
        inSelect := false
        place := .inl rfl
        aliases := .nil
        growing
        names := False.elim }
    rw [outer] at same
    obtain ⟨_, grown⟩ := linked.induction.relation r both draft draft text final text final
      (.inl rfl) same alone
    change Grown (disturbances (ScopedAlias.scope (ctx.aliases ++ aliases)) _) text text at grown
    rw [owners] at grown
    -- a text is not longer than itself, so there is no disturbance that it could have grown by
    apply disturbances_eq_zero.mp
    exact Nat.le_zero.mp (Nat.le_of_add_le_add_left grown)
  · intro undisturbed
    rw [kept undisturbed]
    exact alone

/-! Orders under the alias `a`, joined with the large amounts of a table. -/

namespace LargeAmounts

def orders : Table := ⟨⟨0⟩, .orders, none⟩

def refunds : Table := ⟨⟨1⟩, .refunds, none⟩

def large (t : Table) : Relation :=
  .select
    { id := ⟨2⟩
      table := some (.table t)
      filters := [.binary .gt [.column ⟨.table t, "amount"⟩, .value (.int 100)]] }

def join (t : Table) : Join where
  id := ⟨4⟩
  sources := [.aliased ⟨⟨3⟩, .table orders, "a"⟩, large t]
  kind := .inner
  on := []
  columns := none

def aliases : List ScopedAlias := [⟨"a", [⟨3⟩, ⟨0⟩]⟩, ⟨"tmp1", [⟨2⟩]⟩]

def settings : Settings := { dialect := .duckDB }

end LargeAmounts

open LargeAmounts in
theorem joinSource_text_of_refunds :
    let text := "(SELECT * FROM \"refunds\" WHERE (\"amount\" > 100))"
    (joinAliases (join refunds).sources).outcome {} = (.ok aliases, { generated := 1 }) ∧
      Quiet (joinScope (join refunds).sources)
        ((large refunds).occurrences (settings.reach {} 0) []) ∧
      ((large refunds).render (settings.links {} 0) (settings.context.joined aliases)).outcome {} =
        (.ok text, {}) := by
  have named : (joinAliases (join refunds).sources).outcome {} =
      (.ok aliases, { generated := 1 }) := rfl
  have quiet : Quiet (joinScope (join refunds).sources)
      ((large refunds).occurrences (settings.reach {} 0) []) := by decide
  have same := (joinSource_text_iff {} settings 0 settings.context (join refunds) (large refunds)
    named).2 {} _ {} Dialect.duckDB_growing rfl
  exact ⟨named, quiet, same.mpr quiet⟩

open LargeAmounts in
/-- The alias of the orders gets into the query for the large ones among them, where it is not in
scope. -/
theorem joinSource_text_ne_of_orders :
    let inside := (large orders).render (settings.links {} 0) (settings.context.joined aliases)
    let alone := (large orders).render (settings.links {} 0)
      ((settings.context.joined aliases).under [])
    (joinAliases (join orders).sources).outcome {} = (.ok aliases, { generated := 1 }) ∧
      inside.outcome {} = (.ok "(SELECT * FROM \"orders\" WHERE (\"a\".\"amount\" > 100))", {}) ∧
      alone.outcome {} = (.ok "(SELECT * FROM \"orders\" WHERE (\"amount\" > 100))", {}) :=
  ⟨rfl, rfl, rfl⟩

end SqlQuery
