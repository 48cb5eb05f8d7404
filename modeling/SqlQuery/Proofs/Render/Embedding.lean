import SqlQuery.Builder.Statement
import SqlQuery.Proofs.Render.Growth
import SqlQuery.Proofs.Render.WithClause

/-!
Statements around a query: what follows the head of a statement is the SQL of the query itself. That
is so unless the query needs definitions, which go before the whole statement, or the relation is
only the name of one, which CREATE TABLE and INSERT write as it is.
-/

namespace SqlQuery

/-! The SQL of a node depends on the bindings in the store, not on the numbers given out. -/

section Bindings

variable {store later : Store} (same : later.bindings = store.bindings)

include same

theorem Settings.links_of_bindings (settings : Settings) (depth : Nat) :
    settings.links later depth = settings.links store depth := by
  have resolve : later.resolve = store.resolve := by
    funext id name
    rw [Store.resolve, Store.resolve, Store.binding?, Store.binding?, same]
  induction depth with
  | zero => rw [Settings.links, Settings.links, resolve]
  | succ depth ih => rw [Settings.links, Settings.links, resolve, ih]

theorem Node.compile_of_bindings (settings : Settings) (node : Node) :
    node.compile later settings = node.compile store settings := by
  have values : settings.values later = settings.values store := by
    rw [Settings.values, Settings.values, same]
  have depth : settings.depth later = settings.depth store := by
    rw [Settings.depth, Settings.depth, Settings.owners, Settings.owners, values]
  rw [Node.compile, Node.compile, depth, compileWithin_eq, compileWithin_eq,
    Settings.links_of_bindings same]

end Bindings

/-! The relation after the head of a statement. -/

namespace Relation

/-- The relation that a statement gets for the one it is built from. -/
def IsSource (source : Relation) : Relation → Prop
  | .table t => ∃ id, source = .select { id, table := some (.table t) }
  | r => source = r

/-- The relation as it is has the given text at the place of a query, and needs no definitions. -/
def StandsAs (store : Store) (settings : Settings) (r : Relation) (text : String) : Prop :=
  ∃ draft, (r.render (settings.links store (settings.depth store)) settings.context).outcome {} =
    (.ok text, draft) ∧ draft.definitions = []

/-- The condition under which a statement has the query of a relation after its head. An alias and
a CTE are written as a name there. A parameter is written as its value is at that place, and that
is shorter than the query for its rows, unless the dialect makes longer parts into shorter texts. -/
def Embeds (store : Store) (settings : Settings) (q : String) : Relation → Prop
  | .aliased _ => False
  | .cte _ => False
  | .param p => ¬ (settings.dialect.Growing ∧ settings.dialect.QuotesPlainly) ∧
      (Relation.param p).StandsAs store settings q
  | r => (Node.relation r).definitions store settings = []

end Relation

namespace Build

variable (store : Store) (t : Table) (r : Relation)

theorem statementSource_outcome :
    ∃ source later, (statementSource r).outcome store = (.ok source, later) ∧
      later.bindings = store.bindings ∧ source.IsSource r := by
  cases r with
  | table table => exact ⟨_, _, rfl, rfl, _, rfl⟩
  | _ => exact ⟨_, _, rfl, rfl, rfl⟩

theorem createAs_outcome :
    ∃ source later, (createAs t r).outcome store = (.ok ⟨t, some source, false, []⟩, later) ∧
      later.bindings = store.bindings ∧ source.IsSource r := by
  obtain ⟨source, later, built, same, isSource⟩ := statementSource_outcome store r
  exact ⟨source, later, ExceptT.outcome_bind_of_ok built, same, isSource⟩

theorem insertFrom_outcome :
    ∃ source later, (insertFrom t r).outcome store = (.ok ⟨t, .query source, none⟩, later) ∧
      later.bindings = store.bindings ∧ source.IsSource r := by
  obtain ⟨source, later, built, same, isSource⟩ := statementSource_outcome store r
  exact ⟨source, later, ExceptT.outcome_bind_of_ok built, same, isSource⟩

end Build

/-! Texts at the place of a query, where a relation that is not one becomes a query for its rows. -/

section Place

variable (links : Links) (ctx : Context)

theorem selectText_star (dialect : Dialect) (source : Rendering String) :
    selectText dialect false none (return []) (do return some (← source)) (return []) (return [])
      (return []) (return []) = (do return "SELECT * FROM " ++ (← source)) := by
  have text (source : String) :
      "SELECT " ++ selectList [] ++ (" FROM " ++ source) = "SELECT * FROM " ++ source := by
    rw [← String.append_assoc]
    rfl
  simp [selectText, clause, text]

theorem Relation.render_selectStar {r : Relation} (name : ¬ r.isQuery = true) (id : RelationId) :
    (Relation.select { id, table := some r }).render links ctx =
      ctx.query r fun ctx => r.render links ctx := by
  rw [Relation.render_select, Context.query_omitted, if_neg name]
  simp only [Expr.renderSelected, Relation.renderFrom, Expr.renderAll]
  rw [selectText_star]
  simp

/-- An alias and a CTE are written as a name wherever they stand. -/
theorem Relation.render_placed_aliased (a : Alias) (inSelect : Bool) :
    (Relation.aliased a).render links (ctx.placed inSelect ctx.inJoin) =
      (Relation.aliased a).render links ctx := by
  rw [Relation.render, Relation.render]
  rfl

theorem Relation.render_placed_cte (c : Cte) (inSelect : Bool) :
    (Relation.cte c).render links (ctx.placed inSelect ctx.inJoin) =
      (Relation.cte c).render links ctx := by
  obtain ⟨id, source, name, params⟩ := c
  rw [Relation.render_cte, Relation.render_cte]
  rfl

theorem CreateTable.render_source (t : Table) (source : Relation) :
    (Statement.create ⟨t, some source, false, []⟩).render links ctx =
      (do return "CREATE TABLE " ++ tableText ctx t ++ " AS " ++ (← source.render links ctx)) := by
  simp [Statement.render, CreateTable.render]

theorem Insert.render_source (t : Table) (source : Relation) :
    (Statement.insert ⟨t, .query source, none⟩).render links ctx =
      (do return "INSERT INTO " ++ tableText ctx t ++ " " ++ (← source.render links ctx)) := by
  simp [Statement.render, Insert.render]

end Place

section Settings

variable {store : Store} {settings : Settings} {r source : Relation} {q : String}

namespace Relation

theorem standsAs_iff_of_query
    (query : ∀ links, source.render links settings.context =
      (Node.relation r).renderRoot links settings.context)
    (compiled : (Node.relation r).compile store settings = .ok q) :
    source.StandsAs store settings q ↔ (Node.relation r).definitions store settings = [] := by
  obtain ⟨body, draft, rendered, rfl⟩ := Node.compileWithin_eq_ok.mp compiled
  constructor
  · rintro ⟨final, written, none⟩
    rw [query, rendered] at written
    cases (Prod.mk.inj written).2
    exact (Node.definitions_eq_nil_iff rendered).mp none
  · intro none
    have undefined := (Node.definitions_eq_nil_iff rendered).mpr none
    refine ⟨draft, ?_, undefined⟩
    rw [query, rendered, Draft.withClause_of_nil undefined]

/-- What is no shorter in the FROM clause of a query for its rows is shorter than that query. -/
theorem not_standsAs_of_grown (name : ¬ r.isQuery = true)
    (grown : ∀ long short first second,
      (r.render (settings.links store (settings.depth store))
        (settings.context.placed true settings.context.inJoin)).outcome {} = (.ok long, first) →
      (r.render (settings.links store (settings.depth store)) settings.context).outcome {} =
        (.ok short, second) → Grown 0 long short)
    (compiled : (Node.relation r).compile store settings = .ok q) :
    ¬ r.StandsAs store settings q := by
  obtain ⟨body, draft, rendered, rfl⟩ := Node.compileWithin_eq_ok.mp compiled
  rintro ⟨final, written, -⟩
  rw [Node.renderRoot, Context.query_omitted, if_neg name] at rendered
  obtain ⟨source, middle, inside, enclosed⟩ := ExceptT.outcome_bind_eq_ok.mp rendered
  cases enclosed
  have shorter := grown _ _ _ _ inside written
  have whole := draft.length_le_withClause ("SELECT * FROM " ++ source)
  rw [Grown] at shorter
  rw [String.length_append, show "SELECT * FROM ".length = 14 from rfl] at whole
  omega

theorem not_standsAs_of_name (name : ¬ r.isQuery = true)
    (placed : ∀ links, r.render links (settings.context.placed true settings.context.inJoin) =
      r.render links settings.context)
    (compiled : (Node.relation r).compile store settings = .ok q) :
    ¬ r.StandsAs store settings q := by
  refine not_standsAs_of_grown name ?_ compiled
  intro long short first second inside alone
  rw [placed, alone] at inside
  cases inside
  exact .refl _

theorem not_standsAs_of_growing (growing : settings.dialect.Growing)
    (plainly : settings.dialect.QuotesPlainly) (name : ¬ r.isQuery = true)
    (compiled : (Node.relation r).compile store settings = .ok q) :
    ¬ r.StandsAs store settings q := by
  let both : Stretch True :=
    { short := settings.context
      outer := []
      inner := []
      inSelect := true
      place := .inr ⟨trivial, rfl⟩
      aliases := .nil
      growing
      names := fun _ => plainly }
  refine not_standsAs_of_grown name ?_ compiled
  intro long short first second inside alone
  have linked := settings.links_grow True store (settings.depth store)
  obtain ⟨-, grown⟩ := linked.induction.relation r both {} {} long first short second (.inl rfl)
    inside alone
  simp only [Grown] at grown ⊢
  omega

theorem standsAs_iff (isSource : source.IsSource r)
    (compiled : (Node.relation r).compile store settings = .ok q) :
    source.StandsAs store settings q ↔ r.Embeds store settings q := by
  cases r with
  | table t =>
      obtain ⟨id, rfl⟩ := isSource
      have named : ¬ (Relation.table t).isQuery = true := Bool.false_ne_true
      exact standsAs_iff_of_query (fun links => render_selectStar links _ named id) compiled
  | aliased a =>
      cases isSource
      have placed links := render_placed_aliased links settings.context a true
      exact iff_false_intro (not_standsAs_of_name Bool.false_ne_true placed compiled)
  | cte c =>
      cases isSource
      have placed links := render_placed_cte links settings.context c true
      exact iff_false_intro (not_standsAs_of_name Bool.false_ne_true placed compiled)
  | param p =>
      cases isSource
      constructor
      · intro stands
        refine ⟨?_, stands⟩
        rintro ⟨growing, plainly⟩
        have named : ¬ (Relation.param p).isQuery = true := Bool.false_ne_true
        exact not_standsAs_of_growing growing plainly named compiled stands
      · intro embeds
        exact embeds.2
  | _ =>
      cases isSource
      exact standsAs_iff_of_query (fun links => rfl) compiled

end Relation

namespace Node

theorem compile_headed_iff {s : Statement} {head : String}
    (written : ∀ links, s.render links settings.context =
      (do return head ++ (← source.render links settings.context)))
    (start : ∀ text rest, head ++ text ≠ "WITH " ++ rest) :
    (Node.statement s).compile store settings = .ok (head ++ q) ↔
      source.StandsAs store settings q := by
  rw [Node.compile, compileWithin_eq_ok]
  simp only [Node.renderRoot, written]
  constructor
  · rintro ⟨body, draft, rendered, same⟩
    obtain ⟨text, final, alone, headed⟩ := ExceptT.outcome_bind_eq_ok.mp rendered
    cases headed
    by_cases none : draft.definitions = []
    · rw [Draft.withClause_of_nil none] at same
      cases String.append_right_inj head |>.mp same
      exact ⟨draft, alone, none⟩
    · obtain ⟨rest, hoisted⟩ := Draft.withClause_of_ne_nil none (head ++ text)
      exact absurd (same.trans hoisted) (start q rest)
  · rintro ⟨draft, alone, none⟩
    refine ⟨head ++ q, draft, ?_, (Draft.withClause_of_nil none _).symm⟩
    exact ExceptT.outcome_bind_of_ok alone

theorem compile_explain_of_rendered {body : String} {draft : Draft}
    (rendered : ((Node.relation r).renderRoot (settings.links store (settings.depth store))
      settings.context).outcome {} = (.ok body, draft)) :
    (Node.statement (.explain r)).compile store settings =
      .ok (draft.withClause (settings.dialect.explain body)) :=
  compileWithin_eq_ok.mpr ⟨_, draft, ExceptT.outcome_bind_of_ok rendered, rfl⟩

theorem compile_explain (compiled : (Node.relation r).compile store settings = .ok q)
    (none : (Node.relation r).definitions store settings = []) :
    (Node.statement (.explain r)).compile store settings = .ok (settings.dialect.explain q) := by
  obtain ⟨body, draft, rendered, rfl⟩ := compileWithin_eq_ok.mp compiled
  have undefined := (definitions_eq_nil_iff rendered).mpr none
  rw [compile_explain_of_rendered rendered, Draft.withClause_of_nil undefined,
    Draft.withClause_of_nil undefined]

theorem definitions_of_compile_explain
    (start : ∀ text rest, settings.dialect.explain text ≠ "WITH " ++ rest)
    (compiled : (Node.relation r).compile store settings = .ok q)
    (explained : (Node.statement (.explain r)).compile store settings =
      .ok (settings.dialect.explain q)) :
    (Node.relation r).definitions store settings = [] := by
  obtain ⟨body, draft, rendered, rfl⟩ := compileWithin_eq_ok.mp compiled
  rw [compile_explain_of_rendered rendered] at explained
  by_contra some
  obtain ⟨rest, hoisted⟩ := Draft.withClause_of_ne_nil
    (mt (definitions_eq_nil_iff rendered).mp some) (settings.dialect.explain body)
  exact start _ rest ((Except.ok.inj explained).symm.trans hoisted)

end Node

/-- A statement that is built around the query of a relation has the SQL of the query after its head
if and only if the query needs no definitions and the relation is a table or a query itself. An
EXPLAIN has it if the query needs no definitions, and only then where the dialect does not begin an
EXPLAIN with WITH. -/
theorem Relation.statements_embed_iff (t : Table)
    (compiled : (Node.relation r).compile store settings = .ok q) :
    let path := ".".intercalate (t.path.segments.map settings.dialect.quote)
    let explained := (Node.statement (.explain r)).compile store settings
    (∃ s later, (Build.createAs t r).outcome store = (.ok s, later) ∧
      ((Node.statement (.create s)).compile later settings =
        .ok ("CREATE TABLE " ++ path ++ " AS " ++ q) ↔ r.Embeds store settings q)) ∧
    (∃ s later, (Build.insertFrom t r).outcome store = (.ok s, later) ∧
      ((Node.statement (.insert s)).compile later settings =
        .ok ("INSERT INTO " ++ path ++ " " ++ q) ↔ r.Embeds store settings q)) ∧
    ((Node.relation r).definitions store settings = [] →
      explained = .ok (settings.dialect.explain q)) ∧
    ((∀ text rest, settings.dialect.explain text ≠ "WITH " ++ rest) →
      explained = .ok (settings.dialect.explain q) →
        (Node.relation r).definitions store settings = []) := by
  refine ⟨?_, ?_, Node.compile_explain compiled, fun start explained =>
    Node.definitions_of_compile_explain start compiled explained⟩
  · obtain ⟨source, later, built, same, isSource⟩ := Build.createAs_outcome store t r
    refine ⟨_, later, built, ?_⟩
    rw [Node.compile_of_bindings same, ← standsAs_iff isSource compiled]
    apply Node.compile_headed_iff fun links => CreateTable.render_source links _ t source
    intro text rest same
    simpa using congrArg String.toList same
  · obtain ⟨source, later, built, same, isSource⟩ := Build.insertFrom_outcome store t r
    refine ⟨_, later, built, ?_⟩
    rw [Node.compile_of_bindings same, ← standsAs_iff isSource compiled]
    apply Node.compile_headed_iff fun links => Insert.render_source links _ t source
    intro text rest same
    simpa using congrArg String.toList same

end Settings

/-! A report on payments, which are the orders with the refunds, or the orders as a CTE. -/

namespace Report

def report : Table :=
  ⟨⟨0⟩, ⟨["report"], by decide, by decide⟩, none⟩

def orders : Relation :=
  .table ⟨⟨1⟩, .orders, none⟩

def refunds : Relation :=
  .table ⟨⟨2⟩, .refunds, none⟩

def payments : Relation :=
  .setOperation ⟨⟨3⟩, .union, orders, refunds⟩

def recent : Relation :=
  .cte ⟨⟨4⟩, orders, some "recent", none⟩

def store : Store := { relations := 5 }

def settings : Settings := { dialect := .duckDB }

def sqlOfPayments : String :=
  "SELECT * FROM \"orders\" UNION SELECT * FROM \"refunds\""

def definitionOfRecent : String :=
  "WITH \n  recent AS (SELECT * FROM \"orders\")\n"

theorem texts :
    (Node.relation payments).compile store settings = .ok sqlOfPayments ∧
      (Node.relation payments).definitions store settings = [] ∧
      (Node.relation recent).compile store settings =
        .ok (definitionOfRecent ++ "SELECT * FROM recent") ∧
      (Node.statement (.create ⟨report, some recent, false, []⟩)).compile store settings =
        .ok (definitionOfRecent ++ "CREATE TABLE \"report\" AS recent") :=
  ⟨by decide +kernel, (Node.definitions_eq_nil_iff rfl).mp rfl, by decide +kernel,
    by decide +kernel⟩

end Report

open Report in
theorem statements_embed_of_payments :
    (Node.relation payments).compile store settings = .ok sqlOfPayments ∧
      (∃ s later, (Build.createAs report payments).outcome store = (.ok s, later) ∧
        (Node.statement (.create s)).compile later settings =
          .ok ("CREATE TABLE \"report\" AS " ++ sqlOfPayments)) ∧
      (∃ s later, (Build.insertFrom report payments).outcome store = (.ok s, later) ∧
        (Node.statement (.insert s)).compile later settings =
          .ok ("INSERT INTO \"report\" " ++ sqlOfPayments)) ∧
      (Node.statement (.explain payments)).compile store settings =
        .ok ("EXPLAIN " ++ sqlOfPayments) := by
  obtain ⟨compiled, none, -⟩ := texts
  obtain ⟨⟨created, first, built, creates⟩, ⟨inserted, second, builtInsert, inserts⟩,
    explains, -⟩ := Relation.statements_embed_iff report compiled
  exact ⟨compiled, ⟨created, first, built, creates.mpr none⟩,
    ⟨inserted, second, builtInsert, inserts.mpr none⟩, explains none⟩

open Report in
/-- The definition of a CTE goes before the statement, and only its name after the head. -/
theorem statement_not_embedded_of_cte :
    (Node.relation recent).compile store settings =
        .ok (definitionOfRecent ++ "SELECT * FROM recent") ∧
      ∃ s, (Build.createAs report recent).outcome store = (.ok s, store) ∧
        (Node.statement (.create s)).compile store settings =
          .ok (definitionOfRecent ++ "CREATE TABLE \"report\" AS recent") :=
  ⟨texts.2.2.1, _, rfl, texts.2.2.2⟩

end SqlQuery
