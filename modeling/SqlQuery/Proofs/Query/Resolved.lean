import SqlQuery.Proofs.Query.Walk
import SqlQuery.Query.Statement
import SqlQuery.Store

/-!
Queries all of whose placeholders are bound, those of embedded queries included.
-/

namespace SqlQuery

/-- The relations directly under a relation. -/
def Relation.sources : Relation → List Relation
  | .table _ => []
  | .aliased a => [a.source]
  | .join j => j.sources
  | .grouping g => [g.table]
  | .setOperation o => [o.left, o.right]
  | .select s => s.table.toList
  | .cte c => [c.source]
  | .param _ => []

def SelectOf.exprs (s : Select) : List Expr :=
  s.columns.getD [] ++ s.filters ++ s.groupBy ++ s.having ++ s.orderBy

/-- The expressions directly under a relation. -/
def Relation.exprs : Relation → List Expr
  | .join j => j.on ++ j.columns.getD []
  | .grouping g => g.keys ++ g.values ++ g.having
  | .select s => s.exprs
  | _ => []

def Statement.sources : Statement → List Relation
  | .create s => s.source.toList
  | .insert ⟨_, .query r, _⟩ => [r]
  | .explain query => [query]
  | _ => []

mutual

inductive Expr.Resolved (bound : PlaceholderId → Prop) : Expr → Prop
  | mk (e : Expr) : (∀ id name, e = .placeholder id name → bound id) →
      (∀ r, e = .subquery r → Relation.Resolved bound r) →
      (∀ c ∈ e.children, Expr.Resolved bound c) → Expr.Resolved bound e

inductive Relation.Resolved (bound : PlaceholderId → Prop) : Relation → Prop
  | mk (r : Relation) : (∀ s ∈ r.sources, Relation.Resolved bound s) →
      (∀ e ∈ r.exprs, Expr.Resolved bound e) → Relation.Resolved bound r

end

def Node.Resolved (bound : PlaceholderId → Prop) : Node → Prop
  | .expr e => e.Resolved bound
  | .relation r => r.Resolved bound
  | .statement s => ∀ r ∈ s.sources, r.Resolved bound

def Store.Binds (store : Store) (id : PlaceholderId) : Prop :=
  (store.binding? id).isSome

/-- What placeholders are bound to has no placeholders left. -/
def Store.Resolved (store : Store) : Prop :=
  ∀ id e, store.binding? id = some e → e.Resolved store.Binds

variable {bound later : PlaceholderId → Prop}

namespace Expr.Resolved

variable {e : Expr}

theorem children : e.Resolved bound → ∀ c ∈ e.children, c.Resolved bound
  | .mk _ _ _ children => children

theorem placeholder {id : PlaceholderId} {name : String} :
    (Expr.placeholder id name).Resolved bound → bound id
  | .mk _ own _ _ => own id name rfl

theorem subquery {r : Relation} : (Expr.subquery r).Resolved bound → r.Resolved bound
  | .mk _ _ embedded _ => embedded r rfl

theorem column (c : Column) : (Expr.column c).Resolved bound :=
  .mk _ nofun nofun nofun

end Expr.Resolved

namespace Relation.Resolved

variable {r : Relation}

theorem sources : r.Resolved bound → ∀ s ∈ r.sources, s.Resolved bound
  | .mk _ sources _ => sources

theorem exprs : r.Resolved bound → ∀ e ∈ r.exprs, e.Resolved bound
  | .mk _ _ exprs => exprs

end Relation.Resolved

/-! More bindings. -/

mutual

theorem Expr.Resolved.mono (more : ∀ id, bound id → later id) {e : Expr} :
    e.Resolved bound → e.Resolved later
  | .mk e own embedded children =>
      .mk e (fun id name same => more id (own id name same))
        (fun r same => (embedded r same).mono more) fun c listed => (children c listed).mono more

theorem Relation.Resolved.mono (more : ∀ id, bound id → later id) {r : Relation} :
    r.Resolved bound → r.Resolved later
  | .mk r sources exprs =>
      .mk r (fun s listed => (sources s listed).mono more) fun e listed =>
        (exprs e listed).mono more

end

theorem Node.Resolved.mono (more : ∀ id, bound id → later id) {node : Node}
    (resolved : node.Resolved bound) : node.Resolved later := by
  cases node with
  | expr e => exact Expr.Resolved.mono more resolved
  | relation r => exact Relation.Resolved.mono more resolved
  | statement s => exact fun r listed => (resolved r listed).mono more

/-! What the walk through an expression finds. -/

/-- An expression is resolved if the placeholders that a walk through it finds are bound and the
queries that it finds are resolved. -/
theorem Expr.resolved_of_walk {e : Expr}
    (own : ∀ id name, Expr.placeholder id name ∈ e.walk → bound id)
    (embedded : ∀ r, Expr.subquery r ∈ e.walk → r.Resolved bound) : e.Resolved bound := by
  simp only [Expr.mem_walk] at own embedded
  induction e using Expr.children_induction with
  | step e ih =>
      refine .mk e ?_ ?_ ?_
      · rintro id name rfl
        exact own id name .self
      · rintro r rfl
        exact embedded r .self
      · intro c listed
        exact ih c listed (fun id name within => own id name (.child listed within))
          (fun r within => embedded r (.child listed within))

end SqlQuery
