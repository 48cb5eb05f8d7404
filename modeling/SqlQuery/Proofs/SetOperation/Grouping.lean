import SqlQuery.Dialect.DuckDB
import SqlQuery.Proofs.Render.Outcome
import SqlQuery.Proofs.SetOperation.Reading

/-!
The grouping of set operations in the text of a query. Operands at the root of a query have no
parentheses, so the text shows only their order.
-/

namespace SqlQuery

/-- The set operations of a relation, down to the queries that they combine. -/
def Relation.setTree : Relation → SetTree Relation
  | .setOperation ⟨_, operator, left, right⟩ => .node operator left.setTree right.setTree
  | r => .leaf r

def Relation.renderOperand (links : Links) (ctx : Context) (r : Relation) : Rendering String :=
  ctx.query r fun ctx => r.render links ctx

def Relation.renderSetTree (links : Links) (ctx : Context) (r : Relation) :
    Rendering (SetTree String) :=
  r.setTree.mapM (Relation.renderOperand links ctx)

theorem Relation.renderOperand_setOperation (links : Links) (ctx : Context)
    (notInSelect : ctx.inSelect = false) (notInJoin : ctx.inJoin = false) (o : SetOperation) :
    (Relation.setOperation o).renderOperand links ctx = (do
      let left ← o.left.renderOperand links ctx
      let right ← o.right.renderOperand links ctx
      return left ++ " " ++ o.operator.keyword ++ " " ++ right) := by
  obtain ⟨id, operator, left, right⟩ := o
  obtain ⟨dialect, autocommit, inSelect, inJoin, aliases⟩ := ctx
  cases notInSelect
  cases notInJoin
  rfl

theorem Relation.renderOperand_eq_text (links : Links) (ctx : Context)
    (notInSelect : ctx.inSelect = false) (notInJoin : ctx.inJoin = false) (r : Relation) :
    r.renderOperand links ctx = (do return (← r.renderSetTree links ctx).text) := by
  rw [renderSetTree]
  fun_induction Relation.setTree r with
  | case1 id operator left right ihLeft ihRight =>
      rw [renderOperand_setOperation links ctx notInSelect notInJoin]
      simp only [ihLeft, ihRight, SetTree.mapM, bind_assoc, pure_bind, SetTree.text]
  | case2 r leaf => simp only [SetTree.mapM, SetTree.text, bind_assoc, pure_bind, bind_pure]

theorem SetTree.mapM_shape {α β : Type} {f : α → Rendering β} {t : SetTree α} {u : SetTree β}
    {draft final : Draft} (mapped : (t.mapM f).outcome draft = (.ok u, final)) :
    t.Forall₂ (fun _ _ => True) u := by
  induction t generalizing u draft final with
  | leaf a =>
      obtain ⟨b, middle, _, same⟩ := ExceptT.outcome_bind_eq_ok.mp mapped
      cases same
      exact .leaf trivial
  | node operator left right ihLeft ihRight =>
      obtain ⟨left', middle, leftMapped, rest⟩ := ExceptT.outcome_bind_eq_ok.mp mapped
      obtain ⟨right', last, rightMapped, same⟩ := ExceptT.outcome_bind_eq_ok.mp rest
      cases same
      exact .node (ihLeft leftMapped) (ihRight rightMapped)

/-- The text of a relation at the root of a query is that of its operands with the operators
between them. It is read as the relation's own tree of set operations over them exactly if that
tree is grouped as it is read without parentheses and, unless the relation is no set operation at
all, no operand orders or limits its rows. -/
theorem setOperations_read_iff {store : Store} {settings : Settings} {r : Relation} {sql : String}
    (compiled : (Node.relation r).compile store settings = .ok sql) :
    ∃ texts draft,
      (r.renderSetTree (settings.links store (settings.depth store)) settings.context).outcome {} =
        (.ok texts, draft) ∧
      sql = draft.withClause texts.text ∧
      ∀ reads, texts.Forall₂ Reader.ReadsSelect reads →
        (Reader.query texts.text = some (Reader.combined (reads.map Reader.selectQuery)) ↔
          r.setTree.isGrouped ∧
            (r.setTree.isLeaf ∨ ∀ read ∈ reads.leaves, Reader.trailer read = [])) := by
  obtain ⟨body, draft, rendered, rfl⟩ := Node.compileWithin_eq_ok.mp compiled
  change (r.renderOperand _ settings.context).outcome {} = _ at rendered
  rw [Relation.renderOperand_eq_text _ settings.context rfl rfl] at rendered
  obtain ⟨texts, final, written, same⟩ := ExceptT.outcome_bind_eq_ok.mp rendered
  cases same
  refine ⟨texts, draft, written, rfl, ?_⟩
  intro reads selects
  have shape := SetTree.mapM_shape written
  rw [shape.isGrouped_eq, shape.isLeaf_eq]
  exact Reader.query_text_iff selects

/-! Four tables, and the queries for their rows. -/

namespace FourTables

def a : Relation := .table ⟨⟨0⟩, ⟨["a"], by decide, by decide⟩, none⟩

def b : Relation := .table ⟨⟨1⟩, ⟨["b"], by decide, by decide⟩, none⟩

def c : Relation := .table ⟨⟨2⟩, ⟨["c"], by decide, by decide⟩, none⟩

def d : Relation := .table ⟨⟨3⟩, ⟨["d"], by decide, by decide⟩, none⟩

def combine (operator : SetOperator) (left right : Relation) : Relation :=
  .setOperation ⟨⟨4⟩, operator, left, right⟩

def settings : Settings := { dialect := .duckDB }

def rows (table : Char) : List Reader.Item :=
  [Reader.keywordItem "SELECT", .token (.symbol '*'), Reader.keywordItem "FROM",
    .token (.quoted .double [table])]

end FourTables

open FourTables in
theorem setOperations_read_of_grouped :
    let sql := "SELECT * FROM \"a\" UNION ALL SELECT * FROM \"b\" EXCEPT " ++
      "SELECT * FROM \"c\" INTERSECT SELECT * FROM \"d\""
    (Node.relation (combine .except (combine .unionAll a b) (combine .intersect c d))).compile {}
        settings = .ok sql ∧
      Reader.query sql =
        some (.combine .except (.combine .unionAll (.select (rows 'a')) (.select (rows 'b')))
          (.combine .intersect (.select (rows 'c')) (.select (rows 'd')))) := by
  intro sql
  have compiled : (Node.relation
      (combine .except (combine .unionAll a b) (combine .intersect c d))).compile {} settings =
        .ok sql := rfl
  refine ⟨compiled, ?_⟩
  obtain ⟨texts, draft, written, _, reading⟩ := setOperations_read_iff compiled
  cases written
  let reads : SetTree (List Reader.Item) :=
    .node .except (.node .unionAll (.leaf (rows 'a')) (.leaf (rows 'b')))
      (.node .intersect (.leaf (rows 'c')) (.leaf (rows 'd')))
  apply (reading reads ?_).mpr
  · exact ⟨rfl, .inr (by decide)⟩
  · exact .node (.node (.leaf ⟨rfl, by decide⟩) (.leaf ⟨rfl, by decide⟩))
      (.node (.leaf ⟨rfl, by decide⟩) (.leaf ⟨rfl, by decide⟩))

open FourTables in
/-- A difference on the right of another one is written like one on the left of it, without the
parentheses that would keep the two apart. -/
theorem except_grouping_lost :
    let sql := "SELECT * FROM \"a\" EXCEPT SELECT * FROM \"b\" EXCEPT SELECT * FROM \"c\""
    let enclosed := rows 'a' ++ Reader.operatorItems .except ++
      [.group (rows 'b' ++ Reader.operatorItems .except ++ rows 'c')]
    let left := combine .except (combine .except a b) c
    let right := combine .except a (combine .except b c)
    (Node.relation left).compile {} settings = .ok sql ∧
      (Node.relation right).compile {} settings = .ok sql ∧ left.setTree ≠ right.setTree ∧
      Reader.query sql = some (.combine .except
        (.combine .except (.select (rows 'a')) (.select (rows 'b'))) (.select (rows 'c'))) ∧
      Reader.pieceQuery (Reader.pieces enclosed) = some (.combine .except (.select (rows 'a'))
        (.combine .except (.select (rows 'b')) (.select (rows 'c')))) := by
  refine ⟨rfl, rfl, ?_, ?_, rfl⟩
  · intro same
    injection same with _ sameLeft _
    cases sameLeft
  · let texts : SetTree String :=
      .node .except (.node .except (.leaf "SELECT * FROM \"a\"") (.leaf "SELECT * FROM \"b\""))
        (.leaf "SELECT * FROM \"c\"")
    let reads : SetTree (List Reader.Item) :=
      .node .except (.node .except (.leaf (rows 'a')) (.leaf (rows 'b'))) (.leaf (rows 'c'))
    have selects : texts.Forall₂ Reader.ReadsSelect reads :=
      .node (.node (.leaf ⟨rfl, by decide⟩) (.leaf ⟨rfl, by decide⟩)) (.leaf ⟨rfl, by decide⟩)
    exact (Reader.query_text_iff selects).mpr ⟨rfl, .inr (by decide)⟩

end SqlQuery
