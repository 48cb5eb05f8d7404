import SqlQuery.Proofs.Query.Throughout
import SqlQuery.Proofs.Render.GeneratedNames

/-!
The select lists of a query in its text, and conditions that hold for all relations which are
written on the way.
-/

namespace SqlQuery

/-! Conditions on all relations of a passage. -/

section Throughout

variable {P : Relation → Prop} {store : Store} {settings : Settings} {depth : Nat} {ctx : Context}

/-- What stands behind placeholders and parameters meets the condition. -/
structure Settings.Throughout (P : Relation → Prop) (store : Store) (settings : Settings) :
    Prop where
  bindings : ∀ id e, store.binding? id = some e → e.Throughout P
  params : ∀ name node, settings.param name = .ok node → node.Throughout P

namespace Place

theorem exprs_throughout {es : List Expr} (holds : ∀ e ∈ es, e.Throughout P) :
    ∀ q ∈ Place.exprs depth ctx es, q.node.Throughout P := by
  intro q listed
  obtain ⟨e, inside, rfl⟩ := List.mem_map.mp listed
  exact (holds e inside).node

theorem relations_throughout {rs : List Relation} (holds : ∀ r ∈ rs, r.Throughout P) :
    ∀ q ∈ Place.relations depth ctx rs, q.node.Throughout P := by
  intro q listed
  obtain ⟨r, inside, rfl⟩ := List.mem_map.mp listed
  exact (holds r inside).node

theorem linked_throughout {target : Except Error Node}
    (holds : ∀ node, target = .ok node → node.Throughout P) :
    ∀ q ∈ Place.linked depth ctx target, q.node.Throughout P := by
  intro q listed
  cases depth with
  | zero => cases listed
  | succ depth =>
      cases target with
      | error e => cases listed
      | ok node =>
          cases List.mem_singleton.mp listed
          exact holds node rfl

end Place

open Place

theorem Expr.places_throughout {e : Expr} (behind : settings.Throughout P store)
    (holds : e.Throughout P) : ∀ q ∈ e.places store settings depth ctx, q.node.Throughout P := by
  cases e with
  | placeholder id name =>
      apply linked_throughout
      intro node found
      cases bound : store.binding? id with
      | none =>
          rw [Store.resolve, bound] at found
          cases found
      | some e =>
          rw [Store.resolve, bound] at found
          cases found
          exact (behind.bindings id e bound).node
  | param name => exact linked_throughout (behind.params name)
  | subquery r => exact List.forall_mem_singleton.mpr holds.subquery.node
  | _ => exact exprs_throughout holds.children

theorem GroupingOf.places_throughout {g : Grouping} (holds : (Relation.grouping g).Throughout P) :
    ∀ q ∈ g.places depth ctx, q.node.Throughout P := by
  have table : g.table.Throughout P := holds.sources _ List.mem_cons_self
  have own : ∀ e ∈ g.outputs ++ g.having, e.Throughout P := holds.exprs
  obtain ⟨outputs, having⟩ := List.forall_mem_append.mp own
  unfold GroupingOf.places
  cases absorbed : g.absorbed? with
  | some s =>
      -- the parts of the SELECT are parts of the table of the grouping
      rw [(GroupingOf.eq_of_absorbed absorbed).1] at table
      have exprs : ∀ e ∈ s.exprs, e.Throughout P := table.exprs
      simp only [SelectOf.exprs, List.forall_mem_append] at exprs
      simp only [List.forall_mem_append, exprs_append]
      exact ⟨⟨exprs_throughout outputs, relations_throughout table.sources⟩,
        ⟨exprs_throughout exprs.1.1.1.2, exprs_throughout having⟩, exprs_throughout exprs.2⟩
  | none =>
      simp only [List.forall_mem_append, List.forall_mem_singleton]
      exact ⟨⟨exprs_throughout outputs, table.node⟩, exprs_throughout having⟩

theorem Relation.places_throughout {r : Relation} (behind : settings.Throughout P store)
    (holds : r.Throughout P) (aliases : List ScopedAlias) :
    ∀ q ∈ r.places settings depth ctx aliases, q.node.Throughout P := by
  have sources := holds.sources
  have exprs := holds.exprs
  cases r with
  | table t => exact List.forall_mem_nil _
  | aliased a => exact List.forall_mem_singleton.mpr (sources _ List.mem_cons_self).node
  | join j =>
      exact List.forall_mem_append.mpr ⟨relations_throughout sources, exprs_throughout exprs⟩
  | grouping g => exact g.places_throughout holds
  | setOperation o =>
      obtain ⟨left, right⟩ := List.forall_mem_cons.mp sources
      exact List.forall_mem_cons.mpr
        ⟨left.node, List.forall_mem_singleton.mpr (right _ List.mem_cons_self).node⟩
  | select s =>
      simp only [Relation.exprs, SelectOf.exprs, List.append_assoc] at exprs
      obtain ⟨columns, others⟩ := List.forall_mem_append.mp exprs
      simp only [Relation.places, List.append_assoc, List.forall_mem_append]
      exact ⟨exprs_throughout columns, relations_throughout sources, exprs_throughout others⟩
  | cte c => exact List.forall_mem_singleton.mpr (sources _ List.mem_cons_self).node
  | param p => exact linked_throughout (behind.params p.name)

theorem Statement.places_throughout {s : Statement} (holds : ∀ r ∈ s.sources, r.Throughout P) :
    ∀ q ∈ s.places depth ctx, q.node.Throughout P := by
  cases s with
  | create s => exact relations_throughout holds
  | drop s => exact List.forall_mem_nil _
  | truncate t => exact List.forall_mem_nil _
  | insert s =>
      obtain ⟨table, source, columns⟩ := s
      cases source with
      | rows rows => exact List.forall_mem_nil _
      | query r => exact List.forall_mem_singleton.mpr (holds r List.mem_cons_self).node
  | commit => exact List.forall_mem_nil _
  | explain query => exact List.forall_mem_singleton.mpr (holds query List.mem_cons_self).node

theorem Passage.parts_throughout {p : Passage} (behind : settings.Throughout P store)
    (holds : p.node.Throughout P) : ∀ q ∈ p.parts store settings, q.node.Throughout P := by
  intro q part
  have listed : q.toPlace ∈ p.places store settings := place_mem_of_inTurn part
  obtain ⟨⟨depth, ctx, node⟩, draft⟩ := p
  cases node with
  | expr e => exact Expr.places_throughout behind (holds.exprs e List.mem_cons_self) _ listed
  | relation r =>
      exact Relation.places_throughout behind (holds.relations r List.mem_cons_self) _ _ listed
  | statement s => exact Statement.places_throughout holds.relations _ listed

theorem Passage.visited_throughout {p q : Passage} (behind : settings.Throughout P store)
    (holds : p.node.Throughout P) (inside : q ∈ p.visited store settings) :
    q.node.Throughout P := by
  induction p using Passage.induction store settings with
  | step p ih =>
      rw [visited_eq, List.mem_append, List.mem_flatMap] at inside
      rcases inside with ⟨part, listed, inside⟩ | own
      · exact ih part listed (parts_throughout behind holds part listed) inside
      · rwa [List.mem_singleton.mp own]

theorem Node.rootPlaces_throughout {node : Node} (holds : node.Throughout P) :
    ∀ q ∈ node.rootPlaces depth ctx, q.node.Throughout P := by
  cases node with
  | expr e =>
      cases e with
      | code sql => exact List.forall_mem_nil _
      | _ => exact List.forall_mem_singleton.mpr holds
  | relation r => exact List.forall_mem_singleton.mpr holds
  | statement s => exact List.forall_mem_singleton.mpr holds

theorem Node.passages_throughout {node : Node} {p : Passage} (behind : settings.Throughout P store)
    (holds : node.Throughout P) (passed : p ∈ node.passages store settings) :
    p.node.Throughout P := by
  obtain ⟨root, isRoot, inside⟩ := List.mem_flatMap.mp passed
  have start : root.node.Throughout P :=
    Node.rootPlaces_throughout holds root.toPlace (Passage.place_mem_of_inTurn isRoot)
  exact Passage.visited_throughout behind start inside

end Throughout

/-! Select lists. -/

inductive SelectItem where
  | all
  | expr (e : Expr)

namespace SelectItem

/-- The items for some columns, or all columns if there are none. -/
def orAll : List Expr → List SelectItem
  | [] => [.all]
  | e :: rest => .expr e :: rest.map .expr

theorem orAll_ne_nil (es : List Expr) : orAll es ≠ [] := by
  cases es <;> exact List.cons_ne_nil _ _

def Shows (links : Links) : SelectItem → String → Prop
  | .all, text => text = "*"
  | .expr e, text => ∃ ctx before after, (e.render links ctx).outcome before = (.ok text, after)

end SelectItem

/-- The select list that a relation writes, if it writes one of its own. -/
def Relation.selectItems? : Relation → Option (List SelectItem)
  | .select s => some (SelectItem.orAll (s.columns.getD []))
  | .grouping g =>
      some (if g.absorbed?.isSome then SelectItem.orAll g.outputs else g.outputs.map .expr)
  | .join j => some (j.columns.elim [.all] (List.map .expr))
  | _ => none

/-- Only a join with no columns and a grouping with neither keys nor values have empty lists. -/
theorem Relation.selectItems?_eq_nil {r : Relation} (empty : r.selectItems? = some []) :
    (∃ j, r = .join j ∧ j.columns = some []) ∨ ∃ g, r = .grouping g ∧ g.outputs = [] := by
  cases r with
  | join j =>
      cases columns : j.columns with
      | none =>
          rw [selectItems?, columns] at empty
          cases empty
      | some es =>
          rw [selectItems?, columns] at empty
          obtain rfl : es = [] := List.map_eq_nil_iff.mp (Option.some.inj empty)
          exact .inl ⟨j, rfl, columns⟩
  | grouping g =>
      have items := Option.some.inj empty
      split at items
      · exact absurd items (SelectItem.orAll_ne_nil _)
      · exact .inr ⟨g, rfl, List.map_eq_nil_iff.mp items⟩
  | select s => exact absurd (Option.some.inj empty) (SelectItem.orAll_ne_nil _)
  | _ => cases empty

/-- Text that is nothing, or apart from what stands before it. -/
def Apart (text : String) : Prop :=
  text = "" ∨ ∃ tail, text = " " ++ tail

namespace Apart

theorem append {first second : String} (one : Apart first) (two : Apart second) :
    Apart (first ++ second) := by
  rcases one with rfl | ⟨tail, rfl⟩
  · rwa [String.empty_append]
  · exact .inr ⟨tail ++ second, String.append_assoc ..⟩

theorem clause (keyword separator : String) (items : List String) :
    Apart (clause keyword separator items) := by
  cases items with
  | nil => exact .inl rfl
  | cons item rest =>
      refine .inr ⟨keyword ++ (" " ++ separator.intercalate (item :: rest)), ?_⟩
      simp only [SqlQuery.clause, String.append_assoc]

end Apart

/-- A query with the given items, one text for each, between SELECT and the rest. -/
def Selects (links : Links) (items : List SelectItem) (sql : String) : Prop :=
  ∃ (texts : List String) (head rest : String), List.Forall₂ (SelectItem.Shows links) items texts ∧
    (head = "" ∨ head = "DISTINCT ") ∧ Apart rest ∧
      sql = "SELECT " ++ head ++ ", ".intercalate texts ++ rest

section Texts

variable {links : Links} {ctx : Context} {draft final : Draft}

theorem Selects.from {items : List SelectItem} {texts : List String}
    (shown : List.Forall₂ (SelectItem.Shows links) items texts) (tail : String) :
    Selects links items ("SELECT " ++ ", ".intercalate texts ++ " FROM " ++ tail) := by
  have blank : " FROM " ++ tail = " " ++ ("FROM " ++ tail) := by
    rw [← String.append_assoc]
    rfl
  refine ⟨texts, "", " FROM " ++ tail, shown, .inl rfl, .inr ⟨_, blank⟩, ?_⟩
  simp only [String.append_assoc, String.empty_append]

theorem shows_of_renderAll {es : List Expr} {texts : List String}
    (rendered : (Expr.renderAll links ctx es).outcome draft = (.ok texts, final)) :
    List.Forall₂ (SelectItem.Shows links) (es.map .expr) texts := by
  induction es generalizing draft texts with
  | nil =>
      cases rendered
      exact .nil
  | cons e rest ih =>
      obtain ⟨text, middle, own, later⟩ := ExceptT.outcome_bind_eq_ok.mp rendered
      obtain ⟨others, last, rendered, result⟩ := ExceptT.outcome_bind_eq_ok.mp later
      cases result
      exact .cons ⟨ctx, draft, middle, own⟩ (ih rendered)

theorem exists_shown {es : List Expr} {texts : List String}
    (shown : List.Forall₂ (SelectItem.Shows links) (es.map .expr) texts) :
    ∃ items, List.Forall₂ (SelectItem.Shows links) (SelectItem.orAll es) items ∧
      selectList texts = ", ".intercalate items := by
  cases es with
  | nil =>
      cases shown
      exact ⟨["*"], .cons rfl .nil, rfl⟩
  | cons e rest =>
      cases shown with
      | cons first others => exact ⟨_, .cons first others, rfl⟩

theorem selects_of_selectText {dialect : Dialect} {distinct : Bool} {limit : Option UInt64}
    {columns filters groupBy having orderBy : Rendering (List String)}
    {table : Rendering (Option String)} {es : List Expr} {sql : String}
    (shown : ∀ draft texts final, columns.outcome draft = (.ok texts, final) →
      List.Forall₂ (SelectItem.Shows links) (es.map .expr) texts)
    (rendered : (selectText dialect distinct limit columns table filters groupBy having
      orderBy).outcome draft = (.ok sql, final)) :
    Selects links (SelectItem.orAll es) sql := by
  obtain ⟨texts, _, listed, rendered⟩ := ExceptT.outcome_bind_eq_ok.mp rendered
  obtain ⟨source, _, _, rendered⟩ := ExceptT.outcome_bind_eq_ok.mp rendered
  obtain ⟨filters, _, _, rendered⟩ := ExceptT.outcome_bind_eq_ok.mp rendered
  obtain ⟨groupBy, _, _, rendered⟩ := ExceptT.outcome_bind_eq_ok.mp rendered
  obtain ⟨having, _, _, rendered⟩ := ExceptT.outcome_bind_eq_ok.mp rendered
  obtain ⟨orderBy, _, _, rendered⟩ := ExceptT.outcome_bind_eq_ok.mp rendered
  cases rendered
  obtain ⟨items, shown, list⟩ := exists_shown (shown _ _ _ listed)
  have limited : Apart (if limit.isSome then " " ++ dialect.offsetLimit none limit else "") := by
    split
    · exact .inr ⟨_, rfl⟩
    · exact .inl rfl
  refine ⟨items, if distinct then "DISTINCT " else "", _, shown, ?_,
    (((((Apart.clause "FROM" "" source.toList).append (.clause "WHERE" " AND " filters)).append
      (.clause "GROUP BY" ", " groupBy)).append (.clause "HAVING" " AND " having)).append
        (.clause "ORDER BY" ", " orderBy)).append limited, ?_⟩
  · cases distinct
    · exact .inl rfl
    · exact .inr rfl
  · rw [list]
    simp only [String.append_assoc]

theorem selects_of_joinText {j : Join} {aliases : List ScopedAlias} {sources on : List String}
    {columns : String} {inner : Context}
    (rendered : (Expr.renderJoined links inner j.columns).outcome draft = (.ok columns, final)) :
    Selects links (j.columns.elim [.all] (List.map .expr))
      (joinText ctx j.kind j.sources aliases sources on columns) := by
  have listed : ∃ texts, List.Forall₂ (SelectItem.Shows links)
      (j.columns.elim [.all] (List.map .expr)) texts ∧ columns = ", ".intercalate texts := by
    cases given : j.columns with
    | none =>
        rw [given] at rendered
        cases rendered
        exact ⟨["*"], .cons rfl .nil, rfl⟩
    | some es =>
        rw [given] at rendered
        obtain ⟨texts, _, rendered, result⟩ := ExceptT.outcome_bind_eq_ok.mp rendered
        cases result
        exact ⟨texts, shows_of_renderAll rendered, rfl⟩
  obtain ⟨texts, shown, rfl⟩ := listed
  rw [joinText, String.append_assoc]
  exact .from shown _

theorem selects_of_groupingText {keys values : List Expr} {inner : Context}
    {keyTexts valueTexts having : List String} {source : String} {middle : Draft}
    (first : (Expr.renderAll links inner keys).outcome draft = (.ok keyTexts, middle))
    (second : (Expr.renderAll links inner values).outcome middle = (.ok valueTexts, final)) :
    Selects links ((keys ++ values).map .expr)
      (groupingText keys keyTexts valueTexts source having) := by
  have shown : List.Forall₂ (SelectItem.Shows links) ((keys ++ values).map .expr)
      (keyTexts ++ valueTexts) := by
    rw [List.map_append]
    exact List.rel_append (shows_of_renderAll first) (shows_of_renderAll second)
  rw [groupingText, String.append_assoc, String.append_assoc]
  exact .from shown _

end Texts

namespace Passage

variable {store : Store} {settings : Settings} {p : Passage}

variable (store settings) in
/-- The passage comes to a query with the given items, in the form that its place asks for. -/
def ShowsItems (p : Passage) (items : List SelectItem) : Prop :=
  ∃ (sql text : String) (draft : Draft), Selects (settings.links store p.depth) items sql ∧
    p.outcome store settings = (.ok text, p.after store settings) ∧
      (p.ctx.enclose sql).outcome draft = (.ok text, p.after store settings)

theorem showsItems {r : Relation} {items : List SelectItem} (isRelation : p.node = .relation r)
    (listed : r.selectItems? = some items) (written : p.Written store settings) :
    p.ShowsItems store settings items := by
  obtain ⟨text, outcome⟩ := (written_iff p).mp written
  obtain ⟨⟨depth, ctx, node⟩, draft⟩ := p
  cases isRelation
  have rendered : (r.render (settings.links store depth) ctx).outcome draft = (.ok text, _) :=
    outcome
  cases r with
  | select s =>
      cases listed
      rw [Relation.render_select] at rendered
      obtain ⟨sql, middle, rendered, enclosed⟩ := ExceptT.outcome_bind_eq_ok.mp rendered
      refine ⟨sql, text, middle, selects_of_selectText ?_ rendered, outcome, enclosed⟩
      intro draft texts final rendered
      cases columns : s.columns with
      | none =>
          rw [columns] at rendered
          cases rendered
          exact .nil
      | some es =>
          rw [columns] at rendered
          exact shows_of_renderAll rendered
  | grouping g =>
      have items := Option.some.inj listed
      obtain ⟨id, table, keys, values, having⟩ := g
      cases absorbed : GroupingOf.absorbed? ⟨id, table, keys, values, having⟩ with
      | some s =>
          rw [absorbed, Option.isSome_some, if_pos rfl] at items
          subst items
          obtain ⟨rfl, plain⟩ := GroupingOf.eq_of_absorbed absorbed
          rw [Relation.render_grouping_plain _ _ _ _ _ _ _ plain] at rendered
          obtain ⟨sql, middle, rendered, enclosed⟩ := ExceptT.outcome_bind_eq_ok.mp rendered
          refine ⟨sql, text, middle, selects_of_selectText ?_ rendered, outcome, enclosed⟩
          intro draft texts final rendered
          rw [← Expr.renderAll_append] at rendered
          exact shows_of_renderAll rendered
      | none =>
          rw [absorbed, Option.isSome_none, if_neg Bool.false_ne_true] at items
          subst items
          rw [Relation.render_grouping_nested _ _ _ _ _ _ _
            (GroupingOf.not_plain_of_absorbed absorbed)] at rendered
          obtain ⟨keyTexts, _, first, rendered⟩ := ExceptT.outcome_bind_eq_ok.mp rendered
          obtain ⟨valueTexts, _, second, rendered⟩ := ExceptT.outcome_bind_eq_ok.mp rendered
          obtain ⟨source, _, _, rendered⟩ := ExceptT.outcome_bind_eq_ok.mp rendered
          obtain ⟨having, middle, _, enclosed⟩ := ExceptT.outcome_bind_eq_ok.mp rendered
          exact ⟨_, text, middle, selects_of_groupingText first second, outcome, enclosed⟩
  | join j =>
      cases listed
      rw [Relation.render_join] at rendered
      obtain ⟨aliases, _, _, rendered⟩ := ExceptT.outcome_bind_eq_ok.mp rendered
      obtain ⟨sources, _, _, rendered⟩ := ExceptT.outcome_bind_eq_ok.mp rendered
      obtain ⟨on, _, _, rendered⟩ := ExceptT.outcome_bind_eq_ok.mp rendered
      obtain ⟨columns, middle, columnsRendered, enclosed⟩ := ExceptT.outcome_bind_eq_ok.mp rendered
      exact ⟨_, text, middle, selects_of_joinText columnsRendered, outcome, enclosed⟩
  | _ => cases listed

end Passage

/-- A relation that is no query is written as a query for all its columns where one must stand. -/
theorem Context.query_selects {links : Links} {ctx : Context} {r : Relation} {draft final : Draft}
    {text : String} {render : Context → Rendering String} (name : r.isQuery = false)
    (rendered : (ctx.query r render).outcome draft = (.ok text, final)) :
    ∃ sql middle, Selects links [.all] sql ∧
      (ctx.enclose sql).outcome middle = (.ok text, final) := by
  rw [Context.query_eq] at rendered
  obtain ⟨source, middle, -, enclosed⟩ := ExceptT.outcome_bind_eq_ok.mp rendered
  rw [Context.queried, name, if_neg Bool.false_ne_true] at enclosed
  have all : List.Forall₂ (SelectItem.Shows links) [.all] ["*"] := .cons rfl .nil
  exact ⟨_, middle, .from all source, enclosed⟩

end SqlQuery
