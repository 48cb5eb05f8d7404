import SqlQuery.Proofs.DuckDB.LifeCycle
import SqlQuery.Proofs.Render.WithClause

/-!
Which texts are run for their rows. That is decided by the first word of a text, so by what stands
leftmost in it: a SELECT for every expression and every relation, the statement itself, or the WITH
clause, which comes before all of them.
-/

namespace SqlQuery

namespace Rendering

/-- Whenever the step comes to a text, the text begins with the given one. -/
def Begins (start : String) (x : Rendering String) : Prop :=
  ∀ draft text final, x.outcome draft = (.ok text, final) → ∃ rest, text = start ++ rest

namespace Begins

variable {α : Type} {start : String}

theorem pure (rest : String) : Begins start (Pure.pure (start ++ rest) : Rendering String) := by
  intro draft text final outcome
  cases outcome
  exact ⟨rest, rfl⟩

theorem bind {x : Rendering α} {f : α → Rendering String} (begins : ∀ a, Begins start (f a)) :
    Begins start (x >>= f) := by
  intro draft text final outcome
  obtain ⟨a, middle, -, later⟩ := ExceptT.outcome_bind_eq_ok.mp outcome
  exact begins a middle text final later

theorem keep {x : Rendering String} {f : String → Rendering String} (begins : Begins start x)
    (keeps : ∀ rest, Begins start (f (start ++ rest))) : Begins start (x >>= f) := by
  intro draft text final outcome
  obtain ⟨first, middle, written, later⟩ := ExceptT.outcome_bind_eq_ok.mp outcome
  obtain ⟨rest, rfl⟩ := begins draft first middle written
  exact keeps rest middle text final later

end Begins

end Rendering

open Rendering

/-! The text of a query that stands alone begins with SELECT. -/

/-- Neither in the FROM clause of a SELECT nor among the sources of a join. -/
def Context.Alone (ctx : Context) : Prop :=
  ctx.inSelect = false ∧ ctx.inJoin = false

theorem Context.Alone.enclose {ctx : Context} (alone : ctx.Alone) (sql : String) :
    ctx.enclose sql = pure sql := by
  simp [Context.enclose, alone.1, alone.2]

theorem selectText_begins (dialect : Dialect) (distinct : Bool) (limit : Option UInt64)
    (columns : Rendering (List String)) (source : Rendering (Option String))
    (filters groupBy having orderBy : Rendering (List String)) :
    Begins "SELECT "
      (selectText dialect distinct limit columns source filters groupBy having orderBy) := by
  unfold selectText
  refine .bind fun columns => .bind fun source => .bind fun filters => .bind fun groupBy =>
    .bind fun having => .bind fun orderBy => ?_
  simp only [String.append_assoc]
  exact .pure _

theorem Relation.query_begins {links : Links} {ctx : Context} (alone : ctx.Alone) (r : Relation) :
    Begins "SELECT " (ctx.query r fun ctx => r.render links ctx) := by
  by_cases query : r.isQuery = true
  · rw [Context.query_omitted, if_pos query]
    cases r with
    | table t => cases query
    | aliased a => cases query
    | cte c => cases query
    | param p => cases query
    | join j =>
        rw [Relation.render_join]
        refine .bind fun aliases => .bind fun texts => .bind fun on => .bind fun columns => ?_
        simp only [alone.enclose, joinText, String.append_assoc]
        exact .pure _
    | grouping g =>
        obtain ⟨id, table, keys, values, having⟩ := g
        rcases table.plain_or_nested with ⟨s, rfl, plain⟩ | nested
        · rw [Relation.render_grouping_plain _ _ _ _ _ _ _ plain]
          refine (selectText_begins _ _ _ _ _ _ _ _ _).keep fun rest => ?_
          rw [alone.enclose]
          exact .pure rest
        · rw [Relation.render_grouping_nested _ _ _ _ _ _ _ nested]
          refine .bind fun keys => .bind fun values => .bind fun source => .bind fun having => ?_
          simp only [alone.enclose, groupingText, String.append_assoc]
          exact .pure _
    | select s =>
        rw [Relation.render_select]
        refine (selectText_begins _ _ _ _ _ _ _ _ _).keep fun rest => ?_
        rw [alone.enclose]
        exact .pure rest
    | setOperation o =>
        -- the left operand begins the text, and it stands alone if the operation does
        have inner : (ctx.placed false ctx.inJoin).Alone := ⟨rfl, alone.2⟩
        rw [Relation.render]
        refine (Relation.query_begins inner o.left).keep fun rest => ?_
        refine .bind fun right => ?_
        simp only [alone.enclose, String.append_assoc]
        exact .pure _
  · rw [Context.query_omitted, if_neg query]
    refine .bind fun source => ?_
    rw [alone.enclose]
    exact .pure ("* FROM " ++ source)
termination_by sizeOf r
decreasing_by exact Relation.sizeOf_lt_of_source List.mem_cons_self

/-! The first words of texts. -/

namespace DuckDB

theorem returnsRows_of_row_word {word : String} (first : word ∈ ["SELECT ", "WITH ", "EXPLAIN "])
    (rest : String) : returnsRows (word ++ rest) = true := by
  rw [returnsRows_eq, String.toList_append]
  simp only [List.mem_cons, List.not_mem_nil, or_false] at first
  rcases first with rfl | rfl | rfl <;> rfl

theorem returnsRows_of_other_word {word : String}
    (first : word ∈ ["CREATE TABLE ", "DROP TABLE ", "TRUNCATE TABLE ", "INSERT INTO "])
    (rest : String) : returnsRows (word ++ rest) = false := by
  rw [returnsRows_eq, String.toList_append]
  simp only [List.mem_cons, List.not_mem_nil, or_false] at first
  rcases first with rfl | rfl | rfl | rfl <;> rfl

theorem returnsRows_commit (autocommit : Bool) :
    returnsRows (if autocommit then "" else "COMMIT") = false := by
  rw [returnsRows_eq]
  cases autocommit <;> decide

end DuckDB

open DuckDB

section Root

variable {links : Links} {ctx : Context}

theorem CreateTable.begins (s : CreateTable) : Begins "CREATE TABLE " (s.render links ctx) := by
  obtain ⟨⟨id, path, schema⟩, source, ifNotExists, primaryKeys⟩ := s
  cases source with
  | some source =>
      refine .bind fun text => ?_
      simp only [String.append_assoc]
      exact .pure _
  | none =>
      cases schema with
      | some schema =>
          simp only [CreateTable.render, String.append_assoc]
          exact .pure _
      | none =>
          intro draft text final outcome
          cases outcome

theorem Insert.begins (s : Insert) : Begins "INSERT INTO " (s.render links ctx) := by
  obtain ⟨table, source, columns⟩ := s
  cases source with
  | rows rows =>
      simp only [Insert.render, pure_bind, String.append_assoc]
      exact .pure _
  | query r =>
      refine .bind fun text => ?_
      simp only [String.append_assoc]
      exact .pure _

theorem Expr.root_begins (alone : ctx.Alone) {e : Expr} (notCode : ∀ sql, e ≠ .code sql) :
    Begins "SELECT " ((Node.expr e).renderRoot links ctx) := by
  rw [Node.renderRoot_expr links ctx notCode]
  refine (selectText_begins _ _ _ _ _ _ _ _ _).keep fun rest => ?_
  rw [alone.enclose]
  exact .pure rest

def Node.answersWithRows : Node → Bool
  | .expr _ => true
  | .relation _ => true
  | .statement (.explain _) => true
  | .statement _ => false

theorem Node.returnsRows_of_rendered (alone : ctx.Alone) (dialect : ctx.dialect = .duckDB)
    {node : Node} (notCode : ∀ sql, node ≠ .expr (.code sql)) {draft final : Draft} {body : String}
    (rendered : (node.renderRoot links ctx).outcome draft = (.ok body, final)) :
    returnsRows body = node.answersWithRows := by
  cases node with
  | expr e =>
      have other : ∀ sql, e ≠ .code sql := fun sql same => notCode sql (congrArg Node.expr same)
      obtain ⟨rest, rfl⟩ := Expr.root_begins alone other draft body final rendered
      exact returnsRows_of_row_word (by decide) rest
  | relation r =>
      obtain ⟨rest, rfl⟩ := Relation.query_begins alone r draft body final rendered
      exact returnsRows_of_row_word (by decide) rest
  | statement s =>
      cases s with
      | create s =>
          obtain ⟨rest, rfl⟩ := s.begins draft body final rendered
          exact returnsRows_of_other_word (by decide) rest
      | drop s =>
          cases rendered
          rw [String.append_assoc]
          exact returnsRows_of_other_word (by decide) _
      | truncate t =>
          cases rendered
          exact returnsRows_of_other_word (by decide) _
      | insert s =>
          obtain ⟨rest, rfl⟩ := s.begins draft body final rendered
          exact returnsRows_of_other_word (by decide) rest
      | commit =>
          cases rendered
          exact returnsRows_commit ctx.autocommit
      | explain query =>
          obtain ⟨text, middle, -, written⟩ := ExceptT.outcome_bind_eq_ok.mp rendered
          cases written
          rw [dialect]
          exact returnsRows_of_row_word (by decide) text

end Root

/-- The rows of a text are fetched if and only if the text is that of an expression, a relation or
EXPLAIN, or begins with a WITH clause. So a statement that takes its rows from a query with a CTE
is run as a query. -/
theorem Node.returnsRows_compile_iff {store : Store} {autocommit : Bool} {params : Option Params}
    {node : Node} {sql : String} (notCode : ∀ text, node ≠ .expr (.code text))
    (compiled : node.compile store { dialect := .duckDB, autocommit, params } = .ok sql) :
    returnsRows sql = true ↔
      node.answersWithRows = true ∨
        node.definitions store { dialect := .duckDB, autocommit, params } ≠ [] := by
  obtain ⟨body, draft, rendered, rfl⟩ := compileWithin_eq_ok.mp compiled
  by_cases none : draft.definitions = []
  · rw [Draft.withClause_of_nil none, returnsRows_of_rendered ⟨rfl, rfl⟩ rfl notCode rendered]
    simp [(definitions_eq_nil_iff rendered).mp none]
  · obtain ⟨rest, same⟩ := Draft.withClause_of_ne_nil none body
    rw [same, returnsRows_of_row_word (by decide) rest]
    simp [mt (definitions_eq_nil_iff rendered).mpr none]

/-! An archive that is filled with the recent orders, which are a table or a CTE. -/

namespace Archive

def archive : Table :=
  ⟨⟨0⟩, ⟨["archive"], by decide, by decide⟩, none⟩

def orders : Relation :=
  .table ⟨⟨1⟩, .orders, none⟩

def recent : Relation :=
  .cte ⟨⟨2⟩, orders, some "recent", none⟩

def fill (source : Relation) : Build Node := do
  let select ← Build.selectStar (some source)
  return .statement (.insert (← Build.insertFrom archive (.select select)))

def filled (source : Relation) : Node :=
  .statement (.insert ⟨archive, .query (.select { id := ⟨3⟩, table := some source }), none⟩)

def store : Store := { relations := 4 }

def settings : Settings := { dialect := .duckDB }

def sqlOfOrders : String :=
  "INSERT INTO \"archive\" SELECT * FROM \"orders\""

def sqlOfRecent : String :=
  "WITH \n  recent AS (SELECT * FROM \"orders\")\nINSERT INTO \"archive\" SELECT * FROM recent"

theorem filled_texts :
    (filled orders).compile store settings = .ok sqlOfOrders ∧
      (filled orders).definitions store settings = [] ∧
      (filled recent).compile store settings = .ok sqlOfRecent :=
  ⟨by decide +kernel, (Node.definitions_eq_nil_iff rfl).mp rfl, by decide +kernel⟩

end Archive

open Archive in
theorem returnsRows_compile_of_orders :
    (filled orders).compile store settings = .ok sqlOfOrders ∧
      (filled orders).definitions store settings = [] ∧ ¬ returnsRows sqlOfOrders = true := by
  obtain ⟨compiled, none, -⟩ := filled_texts
  have notCode : ∀ text, filled orders ≠ .expr (.code text) := nofun
  refine ⟨compiled, none, fun rows => ?_⟩
  rcases (Node.returnsRows_compile_iff notCode compiled).mp rows with answers | some
  · cases answers
  · exact some none

open Archive in
/-- The same statement with the orders as a CTE begins with a WITH clause. -/
theorem returnsRows_of_filled_from_cte :
    (fill recent).outcome { relations := 3 } = (.ok (filled recent), store) ∧
      (filled recent).compile store settings = .ok sqlOfRecent ∧
      (filled recent).answersWithRows = false ∧ returnsRows sqlOfRecent = true := by
  refine ⟨rfl, filled_texts.2.2, rfl, ?_⟩
  rw [returnsRows_eq]
  decide

end SqlQuery
