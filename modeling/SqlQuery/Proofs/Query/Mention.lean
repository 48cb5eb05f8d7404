import SqlQuery.Proofs.Query.Resolved

/-!
The placeholders and parameters of a query, those of embedded queries included. The relation that a
column belongs to is not written out with the column, and what it mentions does not count.
-/

namespace SqlQuery

inductive Mention where
  | placeholder (id : PlaceholderId)
  | param (name : String)
  | tableParam (name : String)
  deriving DecidableEq

mutual

inductive Expr.Mentions (m : Mention) : Expr → Prop
  | placeholder {id : PlaceholderId} (name : String) :
      m = .placeholder id → Expr.Mentions m (.placeholder id name)
  | param {name : String} : m = .param name → Expr.Mentions m (.param name)
  | child {e c : Expr} : c ∈ e.children → Expr.Mentions m c → Expr.Mentions m e
  | subquery {r : Relation} : Relation.Mentions m r → Expr.Mentions m (.subquery r)

inductive Relation.Mentions (m : Mention) : Relation → Prop
  | param {p : TableParam} : m = .tableParam p.name → Relation.Mentions m (.param p)
  | source {r s : Relation} : s ∈ r.sources → Relation.Mentions m s → Relation.Mentions m r
  | expr {r : Relation} {e : Expr} : e ∈ r.exprs → Expr.Mentions m e → Relation.Mentions m r

end

def Node.Mentions (m : Mention) : Node → Prop
  | .expr e => e.Mentions m
  | .relation r => r.Mentions m
  | .statement s => ∃ r ∈ s.sources, r.Mentions m

/-! Queries that mention only what is allowed. -/

variable {allowed : Mention → Prop}

def Expr.MentionsOnly (allowed : Mention → Prop) (e : Expr) : Prop :=
  ∀ m, e.Mentions m → allowed m

def Relation.MentionsOnly (allowed : Mention → Prop) (r : Relation) : Prop :=
  ∀ m, r.Mentions m → allowed m

def Node.MentionsOnly (allowed : Mention → Prop) (node : Node) : Prop :=
  ∀ m, node.Mentions m → allowed m

namespace Expr.MentionsOnly

theorem children {e : Expr} (only : e.MentionsOnly allowed) :
    ∀ c ∈ e.children, c.MentionsOnly allowed :=
  fun _ listed m mentioned => only m (.child listed mentioned)

theorem subquery {r : Relation} (only : (Expr.subquery r).MentionsOnly allowed) :
    r.MentionsOnly allowed :=
  fun m mentioned => only m (.subquery mentioned)

theorem placeholder {id : PlaceholderId} {name : String}
    (only : (Expr.placeholder id name).MentionsOnly allowed) : allowed (.placeholder id) :=
  only _ (.placeholder name rfl)

theorem param {name : String} (only : (Expr.param name).MentionsOnly allowed) :
    allowed (.param name) :=
  only _ (.param rfl)

end Expr.MentionsOnly

namespace Relation.MentionsOnly

variable {r : Relation}

theorem sources (only : r.MentionsOnly allowed) : ∀ s ∈ r.sources, s.MentionsOnly allowed :=
  fun _ listed m mentioned => only m (.source listed mentioned)

theorem exprs (only : r.MentionsOnly allowed) : ∀ e ∈ r.exprs, e.MentionsOnly allowed :=
  fun _ listed m mentioned => only m (.expr listed mentioned)

theorem param {p : TableParam} (only : (Relation.param p).MentionsOnly allowed) :
    allowed (.tableParam p.name) :=
  only _ (.param rfl)

end Relation.MentionsOnly

end SqlQuery
