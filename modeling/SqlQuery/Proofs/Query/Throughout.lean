import SqlQuery.Proofs.Query.Resolved

/-!
Conditions on all relations inside a node, those of embedded queries included.
-/

namespace SqlQuery

mutual

inductive Expr.Throughout (P : Relation → Prop) : Expr → Prop
  | mk (e : Expr) : (∀ r, e = .subquery r → Relation.Throughout P r) →
      (∀ c ∈ e.children, Expr.Throughout P c) → Expr.Throughout P e

inductive Relation.Throughout (P : Relation → Prop) : Relation → Prop
  | mk (r : Relation) : P r → (∀ s ∈ r.sources, Relation.Throughout P s) →
      (∀ e ∈ r.exprs, Expr.Throughout P e) → Relation.Throughout P r

end

/-- The relations directly in a node. -/
def Node.relations : Node → List Relation
  | .expr _ => []
  | .relation r => [r]
  | .statement s => s.sources

def Node.exprs : Node → List Expr
  | .expr e => [e]
  | _ => []

structure Node.Throughout (P : Relation → Prop) (node : Node) : Prop where
  relations : ∀ r ∈ node.relations, r.Throughout P
  exprs : ∀ e ∈ node.exprs, e.Throughout P

variable {P : Relation → Prop}

namespace Relation.Throughout

variable {r : Relation}

theorem here : r.Throughout P → P r
  | .mk _ here _ _ => here

theorem sources : r.Throughout P → ∀ s ∈ r.sources, s.Throughout P
  | .mk _ _ sources _ => sources

theorem exprs : r.Throughout P → ∀ e ∈ r.exprs, e.Throughout P
  | .mk _ _ _ exprs => exprs

theorem node (holds : r.Throughout P) : (Node.relation r).Throughout P :=
  ⟨List.forall_mem_singleton.mpr holds, List.forall_mem_nil _⟩

end Relation.Throughout

namespace Expr.Throughout

variable {e : Expr}

theorem children : e.Throughout P → ∀ c ∈ e.children, c.Throughout P
  | .mk _ _ children => children

theorem subquery {r : Relation} : (Expr.subquery r).Throughout P → r.Throughout P
  | .mk _ embedded _ => embedded r rfl

theorem node (holds : e.Throughout P) : (Node.expr e).Throughout P :=
  ⟨List.forall_mem_nil _, List.forall_mem_singleton.mpr holds⟩

theorem column (c : Column) : (Expr.column c).Throughout P :=
  .mk _ nofun nofun

theorem countAll (distinct : Bool) : (Expr.count none distinct).Throughout P :=
  .mk _ nofun nofun

/-- Only the queries that a walk finds matter. -/
theorem of_walk (embedded : ∀ r, Expr.subquery r ∈ e.walk → r.Throughout P) : e.Throughout P := by
  simp only [Expr.mem_walk] at embedded
  induction e using Expr.children_induction with
  | step e ih =>
      refine .mk e ?_ ?_
      · rintro r rfl
        exact embedded r .self
      · intro c listed
        exact ih c listed fun r within => embedded r (.child listed within)

end Expr.Throughout

end SqlQuery
