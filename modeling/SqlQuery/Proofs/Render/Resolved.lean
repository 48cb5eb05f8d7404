import SqlQuery.Proofs.Query.Induction
import SqlQuery.Proofs.Query.Resolved
import SqlQuery.Proofs.Render.Equations
import SqlQuery.Proofs.Render.Outcome

/-!
Writing out a query whose placeholders are bound does not stop at a placeholder.
-/

namespace SqlQuery

open Rendering (Avoids)

def IsUnresolved (e : Error) : Prop :=
  ∃ name, e = .unresolved name

variable {links : Links}

/-! The parts of a query. -/

theorem Context.enclose_avoids (ctx : Context) (sql : String) :
    Avoids IsUnresolved (ctx.enclose sql) := by
  rw [Context.enclose]
  split
  · exact Avoids.newName.map
  · split
    · exact .pure _
    · exact .pure _

theorem Context.query_avoids {r : Relation}
    (avoids : ∀ ctx, Avoids IsUnresolved (r.render links ctx)) (ctx : Context) :
    Avoids IsUnresolved (ctx.query r fun ctx => r.render links ctx) := by
  rw [Context.query_omitted]
  split
  · exact avoids ctx
  · apply (avoids _).bind
    intro source
    exact Context.enclose_avoids _ _

theorem Context.column_avoids (ctx : Context) (owner : RelationId) (name : String) :
    Avoids IsUnresolved (ctx.column owner name : Rendering String) := by
  apply Avoids.lift
  rintro e failed ⟨other, rfl⟩
  rw [Context.column] at failed
  split at failed
  · cases failed
  · cases failed
  · split at failed <;> cases failed

theorem concatText_avoids (dialect : Dialect) (separator : Option String) (items : List String) :
    Avoids IsUnresolved (concatText dialect separator items : Rendering String) := by
  apply Avoids.lift
  rintro e failed ⟨other, rfl⟩
  rw [concatText] at failed
  split at failed
  · cases failed
  · cases failed
  · split at failed <;> cases failed

theorem joinAliases_avoids (sources : List Relation) :
    Avoids IsUnresolved (joinAliases sources) := by
  induction sources with
  | nil => exact .pure _
  | cons r rest ih =>
      have named : Avoids IsUnresolved (do
          let name ← Rendering.newName
          return (⟨name, [r.id]⟩ : ScopedAlias) :: (← joinAliases rest)) := by
        apply Avoids.newName.bind
        intro name
        exact ih.map
      cases r with
      | aliased a =>
          exact ih.map
      | _ => exact named

theorem Expr.renderAll_avoids {es : List Expr}
    (avoids : ∀ e ∈ es, ∀ ctx, Avoids IsUnresolved (e.render links ctx)) (ctx : Context) :
    Avoids IsUnresolved (Expr.renderAll links ctx es) := by
  induction es with
  | nil => exact .pure _
  | cons e rest ih =>
      obtain ⟨head, tail⟩ := List.forall_mem_cons.mp avoids
      rw [Expr.renderAll]
      apply (head ctx).bind
      intro text
      exact (ih tail).map

theorem Expr.renderBranches_avoids {branches : List (BranchOf Expr)}
    (avoids : ∀ b ∈ branches, ∀ ctx, Avoids IsUnresolved (b.condition.render links ctx) ∧
      Avoids IsUnresolved (b.result.render links ctx)) (ctx : Context) :
    Avoids IsUnresolved (Expr.renderBranches links ctx branches) := by
  induction branches with
  | nil => exact .pure _
  | cons branch rest ih =>
      obtain ⟨head, tail⟩ := List.forall_mem_cons.mp avoids
      rw [Expr.renderBranches]
      apply (head ctx).1.bind
      intro condition
      apply (head ctx).2.bind
      intro result
      exact (ih tail).map

theorem Relation.renderAll_avoids {rs : List Relation}
    (avoids : ∀ r ∈ rs, ∀ ctx, Avoids IsUnresolved (r.render links ctx)) (ctx : Context) :
    Avoids IsUnresolved (Relation.renderAll links ctx rs) := by
  induction rs with
  | nil => exact .pure _
  | cons r rest ih =>
      obtain ⟨head, tail⟩ := List.forall_mem_cons.mp avoids
      rw [Relation.renderAll]
      apply (head ctx).bind
      intro text
      exact (ih tail).map

theorem Expr.renderSelected_avoids {columns : Option (List Expr)}
    (avoids : ∀ e ∈ columns.getD [], ∀ ctx, Avoids IsUnresolved (e.render links ctx))
    (ctx : Context) :
    Avoids IsUnresolved (Expr.renderSelected links ctx columns) := by
  cases columns with
  | none => exact .pure _
  | some columns => exact Expr.renderAll_avoids avoids ctx

theorem Relation.renderFrom_avoids {source : Option Relation}
    (avoids : ∀ r ∈ source.toList, ∀ ctx, Avoids IsUnresolved (r.render links ctx))
    (ctx : Context) :
    Avoids IsUnresolved (Relation.renderFrom links ctx source) := by
  cases source with
  | none => exact .pure _
  | some r =>
      exact (avoids r (List.mem_singleton_self r) ctx).map

theorem selectText_avoids {dialect : Dialect} {distinct : Bool} {limit : Option UInt64}
    {columns filters groupBy having orderBy : Rendering (List String)}
    {source : Rendering (Option String)} (columnsAvoid : Avoids IsUnresolved columns)
    (sourceAvoids : Avoids IsUnresolved source) (filtersAvoid : Avoids IsUnresolved filters)
    (groupByAvoids : Avoids IsUnresolved groupBy) (havingAvoids : Avoids IsUnresolved having)
    (orderByAvoids : Avoids IsUnresolved orderBy) :
    Avoids IsUnresolved
      (selectText dialect distinct limit columns source filters groupBy having orderBy) := by
  apply columnsAvoid.bind
  intro columnTexts
  apply sourceAvoids.bind
  intro sourceText
  apply filtersAvoid.bind
  intro filterTexts
  apply groupByAvoids.bind
  intro groupByTexts
  apply havingAvoids.bind
  intro havingTexts
  exact orderByAvoids.map

/-! Whole queries. -/

section

variable (bound : PlaceholderId → Prop) (links : Links)

structure Links.Safe : Prop where
  placeholder : ∀ id name ctx, bound id → Avoids IsUnresolved (links.placeholder id name ctx)
  param : ∀ name ctx, Avoids IsUnresolved (links.param name ctx)

def Expr.Safe (e : Expr) : Prop :=
  e.Resolved bound → ∀ ctx, Avoids IsUnresolved (e.render links ctx)

def Relation.Safe (r : Relation) : Prop :=
  r.Resolved bound → ∀ ctx, Avoids IsUnresolved (r.render links ctx)

end

variable {bound : PlaceholderId → Prop}

theorem Expr.Safe.all {es : List Expr} (safe : ∀ e ∈ es, e.Safe bound links)
    (resolved : ∀ e ∈ es, e.Resolved bound) :
    ∀ e ∈ es, ∀ ctx, Avoids IsUnresolved (e.render links ctx) :=
  fun e listed => safe e listed (resolved e listed)

theorem Expr.Safe.selected {columns : Option (List Expr)}
    (safe : ∀ es, columns = some es → ∀ e ∈ es, e.Safe bound links)
    (resolved : ∀ e ∈ columns.getD [], e.Resolved bound) :
    ∀ e ∈ columns.getD [], ∀ ctx, Avoids IsUnresolved (e.render links ctx) := by
  cases columns with
  | none => exact nofun
  | some es => exact Expr.Safe.all (safe es rfl) resolved

theorem Relation.Safe.from {source : Option Relation}
    (safe : ∀ r, source = some r → r.Safe bound links)
    (resolved : ∀ r ∈ source.toList, r.Resolved bound) :
    ∀ r ∈ source.toList, ∀ ctx, Avoids IsUnresolved (r.render links ctx) := by
  intro r listed
  exact safe r (Option.mem_toList.mp listed) (resolved r listed)

theorem Relation.select_safe {s : Select}
    (parts : s.Parts (Expr.Safe bound links) (Relation.Safe bound links)) :
    (Relation.select s).Safe bound links := by
  intro resolved ctx
  have exprs := resolved.exprs
  simp only [Relation.exprs, SelectOf.exprs, List.forall_mem_append] at exprs
  obtain ⟨⟨⟨⟨columns, filters⟩, groupBy⟩, having⟩, orderBy⟩ := exprs
  rw [Relation.render_select]
  apply Avoids.bind
  · exact selectText_avoids
      (Expr.renderSelected_avoids (Expr.Safe.selected parts.columns columns) _)
      (Relation.renderFrom_avoids (Relation.Safe.from parts.table resolved.sources) _)
      (Expr.renderAll_avoids (Expr.Safe.all parts.filters filters) _)
      (Expr.renderAll_avoids (Expr.Safe.all parts.groupBy groupBy) _)
      (Expr.renderAll_avoids (Expr.Safe.all parts.having having) _)
      (Expr.renderAll_avoids (Expr.Safe.all parts.orderBy orderBy) _)
  · exact Context.enclose_avoids ctx

theorem Relation.join_safe {id : RelationId} {sources : List Relation} {kind : JoinKind}
    {on : List Expr} {columns : Option (List Expr)}
    (sourcesSafe : ∀ r ∈ sources, r.Safe bound links) (onSafe : ∀ e ∈ on, e.Safe bound links)
    (columnsSafe : ∀ es, columns = some es → ∀ e ∈ es, e.Safe bound links) :
    (Relation.join ⟨id, sources, kind, on, columns⟩).Safe bound links := by
  intro resolved ctx
  have exprs := resolved.exprs
  simp only [Relation.exprs, List.forall_mem_append] at exprs
  obtain ⟨onResolved, columnsResolved⟩ := exprs
  rw [Relation.render_join]
  apply (joinAliases_avoids sources).bind
  intro aliases
  apply Avoids.bind
  · exact Relation.renderAll_avoids
      (fun r listed => sourcesSafe r listed (resolved.sources r listed)) _
  intro texts
  apply Avoids.bind
  · exact Expr.renderAll_avoids (Expr.Safe.all onSafe onResolved) _
  intro onTexts
  apply Avoids.bind
  · cases columns with
    | none => exact .pure _
    | some es =>
        exact (Expr.renderAll_avoids (Expr.Safe.all (columnsSafe es rfl) columnsResolved) _).map
  · intro columnTexts
    exact Context.enclose_avoids ctx _

theorem Relation.grouping_safe {id : RelationId} {table : Relation} {keys values having : List Expr}
    (tableSafe : table.Safe bound links)
    (parts : ∀ s, table = .select s →
      s.Parts (Expr.Safe bound links) (Relation.Safe bound links))
    (keysSafe : ∀ e ∈ keys, e.Safe bound links) (valuesSafe : ∀ e ∈ values, e.Safe bound links)
    (havingSafe : ∀ e ∈ having, e.Safe bound links) :
    (Relation.grouping ⟨id, table, keys, values, having⟩).Safe bound links := by
  intro resolved ctx
  have exprs := resolved.exprs
  simp only [Relation.exprs, List.forall_mem_append] at exprs
  obtain ⟨⟨keysResolved, valuesResolved⟩, havingResolved⟩ := exprs
  have tableResolved := resolved.sources table (List.mem_singleton_self table)
  have keysAvoid := Expr.renderAll_avoids (Expr.Safe.all keysSafe keysResolved)
  have valuesAvoid := Expr.renderAll_avoids (Expr.Safe.all valuesSafe valuesResolved)
  have havingAvoids := Expr.renderAll_avoids (Expr.Safe.all havingSafe havingResolved)
  rcases table.plain_or_nested with ⟨s, rfl, plain⟩ | nested
  · have selectParts := parts s rfl
    have selectExprs := tableResolved.exprs
    simp only [Relation.exprs, SelectOf.exprs, List.forall_mem_append] at selectExprs
    obtain ⟨⟨⟨⟨_, filters⟩, _⟩, _⟩, orderBy⟩ := selectExprs
    rw [Relation.render_grouping_plain links ctx id s keys values having plain]
    apply Avoids.bind
    · refine selectText_avoids ?_
        (Relation.renderFrom_avoids (Relation.Safe.from selectParts.table tableResolved.sources) _)
        (Expr.renderAll_avoids (Expr.Safe.all selectParts.filters filters) _) (.pure _)
        (havingAvoids _) (Expr.renderAll_avoids (Expr.Safe.all selectParts.orderBy orderBy) _)
      apply (keysAvoid _).bind
      intro keyTexts
      exact (valuesAvoid _).map
    · exact Context.enclose_avoids ctx
  · rw [Relation.render_grouping_nested links ctx id table keys values having nested]
    apply (keysAvoid _).bind
    intro keyTexts
    apply (valuesAvoid _).bind
    intro valueTexts
    apply (tableSafe tableResolved _).bind
    intro source
    apply (havingAvoids _).bind
    intro havingTexts
    exact Context.enclose_avoids ctx _

theorem Links.Safe.induction (linked : links.Safe bound) :
    QueryInduction (Expr.Safe bound links) (Relation.Safe bound links) where
  value v _ ctx := .pure _
  code sql _ ctx := .pure _
  column c _ ctx := Context.column_avoids ctx c.source.id c.name
  placeholder id name resolved ctx := linked.placeholder id name ctx resolved.placeholder
  aliased e name safe resolved ctx := by
    simp only [Expr.render]
    exact (safe (resolved.children e (List.mem_singleton_self e)) ctx).map
  concat items separator safe resolved ctx := by
    simp only [Expr.render]
    apply (Expr.renderAll_avoids (Expr.Safe.all safe resolved.children) ctx).bind
    intro texts
    exact concatText_avoids ctx.dialect separator texts
  countAll distinct _ ctx := .pure _
  count e distinct safe resolved ctx := by
    rw [Expr.render_count]
    exact (safe (resolved.children e (List.mem_singleton_self e)) ctx).map
  call function arguments safe resolved ctx := by
    simp only [Expr.render]
    exact (Expr.renderAll_avoids (Expr.Safe.all safe resolved.children) ctx).map
  case branches otherwise branchesSafe otherwiseSafe resolved ctx := by
    have children := resolved.children
    simp only [Expr.children, List.forall_mem_append, List.forall_mem_flatMap,
      List.forall_mem_cons] at children
    obtain ⟨branchesResolved, otherwiseResolved⟩ := children
    rw [Expr.render_case]
    split
    · refine .throw ?_
      rintro ⟨name, same⟩
      cases same
    · apply Avoids.bind
      · apply Expr.renderBranches_avoids
        intro b listed ctx
        obtain ⟨conditionSafe, resultSafe⟩ := branchesSafe b listed
        obtain ⟨conditionResolved, resultResolved, _⟩ := branchesResolved b listed
        exact ⟨conditionSafe conditionResolved ctx, resultSafe resultResolved ctx⟩
      intro texts
      apply Avoids.bind
      · cases otherwise with
        | none => exact .pure _
        | some e =>
            exact (otherwiseSafe e rfl (otherwiseResolved e (List.mem_singleton_self e)) ctx).map
      · intro text
        exact .pure _
  isDistinctFrom left right leftSafe rightSafe resolved ctx := by
    have children := resolved.children
    simp only [Expr.children, List.forall_mem_cons] at children
    obtain ⟨leftResolved, rightResolved, _⟩ := children
    simp only [Expr.render]
    apply (leftSafe leftResolved ctx).bind
    intro leftText
    exact (rightSafe rightResolved ctx).map
  binary operator arguments safe resolved ctx := by
    simp only [Expr.render]
    exact (Expr.renderAll_avoids (Expr.Safe.all safe resolved.children) ctx).map
  negate e safe resolved ctx := by
    simp only [Expr.render]
    exact (safe (resolved.children e (List.mem_singleton_self e)) ctx).map
  isIn e list safe listSafe resolved ctx := by
    have children := resolved.children
    simp only [Expr.children, List.forall_mem_cons] at children
    obtain ⟨eResolved, listResolved⟩ := children
    simp only [Expr.render]
    apply (safe eResolved ctx).bind
    intro text
    exact (Expr.renderAll_avoids (Expr.Safe.all listSafe listResolved) ctx).map
  cast e type safe resolved ctx := by
    simp only [Expr.render]
    exact (safe (resolved.children e (List.mem_singleton_self e)) ctx).map
  random _ ctx := .pure _
  currentTimestamp _ ctx := .pure _
  param name _ ctx := linked.param name ctx
  subquery r safe resolved ctx := by
    simp only [Expr.render]
    exact (Context.query_avoids (safe resolved.subquery) _).map
  table t _ ctx := .pure _
  tableAlias id source name safe resolved ctx := by
    simp only [Relation.render]
    exact (safe (resolved.sources source (List.mem_singleton_self source)) _).map
  join id sources kind on columns sourcesSafe onSafe columnsSafe :=
    Relation.join_safe sourcesSafe onSafe columnsSafe
  grouping id table keys values having tableSafe parts keysSafe valuesSafe havingSafe :=
    Relation.grouping_safe tableSafe parts keysSafe valuesSafe havingSafe
  setOperation id operator left right leftSafe rightSafe resolved ctx := by
    have sources := resolved.sources
    simp only [Relation.sources, List.forall_mem_cons] at sources
    obtain ⟨leftResolved, rightResolved, _⟩ := sources
    simp only [Relation.render]
    apply (Context.query_avoids (leftSafe leftResolved) _).bind
    intro leftText
    apply (Context.query_avoids (rightSafe rightResolved) _).bind
    intro rightText
    exact Context.enclose_avoids ctx _
  select s parts := Relation.select_safe parts
  cte id source name params safe resolved ctx := by
    have sourceSafe := safe (resolved.sources source (List.mem_singleton_self source))
    rw [Relation.render_cte]
    apply (Context.query_avoids sourceSafe _).bind
    intro body
    apply Avoids.bind
    · cases name with
      | none => exact .newName
      | some name => exact .pure _
    intro name
    exact (Avoids.define _ _).map
  tableParam p _ ctx := linked.param p.name ctx

theorem Statement.render_avoids (linked : links.Safe bound) {s : Statement}
    (resolved : ∀ r ∈ s.sources, r.Resolved bound) (ctx : Context) :
    Avoids IsUnresolved (s.render links ctx) := by
  have avoids := fun r listed => linked.induction.relation r (resolved r listed)
  cases s with
  | create s =>
      obtain ⟨table, source, ifNotExists, primaryKeys⟩ := s
      simp only [Statement.render, CreateTable.render]
      cases source with
      | some source =>
          exact (avoids source (List.mem_singleton_self source) ctx).map
      | none =>
          cases table.schema with
          | some schema => exact .pure _
          | none => exact .throw nofun
  | drop s => exact .pure _
  | truncate t => exact .pure _
  | insert s =>
      obtain ⟨table, source, columns⟩ := s
      simp only [Statement.render, Insert.render]
      cases source with
      | rows rows => exact .pure _
      | query r =>
          exact (avoids r (List.mem_singleton_self r) ctx).map
  | commit => exact .pure _
  | explain query =>
      simp only [Statement.render]
      exact (Context.query_avoids (avoids query (List.mem_singleton_self query)) ctx).map

theorem Node.render_avoids (linked : links.Safe bound) {node : Node}
    (resolved : node.Resolved bound) (ctx : Context) :
    Avoids IsUnresolved (node.render links ctx) := by
  cases node with
  | expr e => exact linked.induction.expr e resolved ctx
  | relation r => exact linked.induction.relation r resolved ctx
  | statement s => exact Statement.render_avoids linked resolved ctx

theorem Node.renderRoot_avoids (linked : links.Safe bound) {node : Node}
    (resolved : node.Resolved bound) (ctx : Context) :
    Avoids IsUnresolved (node.renderRoot links ctx) := by
  cases node with
  | expr e =>
      have selected : Avoids IsUnresolved (do
          let sql ← selectText ctx.dialect false none
            (do return [← e.render links (ctx.placed true ctx.inJoin)])
            (return ctx.dialect.placeholderTable) (return []) (return []) (return []) (return [])
          ctx.enclose sql) := by
        apply Avoids.bind
        · refine selectText_avoids ?_ (.pure _) (.pure _) (.pure _) (.pure _) (.pure _)
          exact (linked.induction.expr e resolved _).map
        · exact Context.enclose_avoids ctx
      cases e with
      | code sql => exact .pure _
      | _ => exact selected
  | relation r => exact Context.query_avoids (linked.induction.relation r resolved) ctx
  | statement s => exact Statement.render_avoids linked resolved ctx

/-! The links of a store and of parameters. -/

/-- The nodes that are given for parameters have no placeholders left. -/
def Settings.Resolved (settings : Settings) (store : Store) : Prop :=
  ∀ name node, settings.param name = .ok node → node.Resolved store.Binds

theorem Settings.not_isUnresolved_of_param {settings : Settings} {name : String} {e : Error}
    (failed : settings.param name = .error e) : ¬ IsUnresolved e := by
  rintro ⟨other, rfl⟩
  rw [Settings.param] at failed
  split at failed <;> cases failed

theorem Store.resolve_of_binding {store : Store} {id : PlaceholderId} {e : Expr}
    (binding : store.binding? id = some e) (name : String) : store.resolve id name = .ok e := by
  rw [Store.resolve, binding]

theorem Settings.links_safe {store : Store} {settings : Settings} (bindings : store.Resolved)
    (params : settings.Resolved store) (depth : Nat) :
    (settings.links store depth).Safe store.Binds := by
  induction depth with
  | zero =>
      refine ⟨?_, ?_⟩
      · intro id name ctx binds
        obtain ⟨e, binding⟩ := Option.isSome_iff_exists.mp binds
        simp only [Settings.links, Store.resolve_of_binding binding]
        exact .throw nofun
      · intro name ctx
        apply Avoids.bind
        · apply Avoids.lift_bind
          · exact fun e => Settings.not_isUnresolved_of_param
          · exact fun node _ => .pure _
        · exact fun _ => .throw nofun
  | succ depth ih =>
      refine ⟨?_, ?_⟩
      · intro id name ctx binds
        obtain ⟨e, binding⟩ := Option.isSome_iff_exists.mp binds
        simp only [Settings.links, Store.resolve_of_binding binding]
        exact ih.induction.expr e (bindings id e binding) ctx
      · intro name ctx
        apply Avoids.lift_bind
        · exact fun e => Settings.not_isUnresolved_of_param
        · exact fun node given => Node.render_avoids ih (params name node given) ctx

/-- The text of a node without unbound placeholders does not fail for one. -/
theorem Node.compileWithin_ne_unresolved {store : Store} {settings : Settings}
    (bindings : store.Resolved) (params : settings.Resolved store) {node : Node}
    (resolved : node.Resolved store.Binds) (depth : Nat) (name : String) :
    node.compileWithin depth store settings ≠ .error (.unresolved name) := by
  intro failed
  obtain ⟨draft, stopped⟩ := Node.compileWithin_eq_error.mp failed
  have linked := Settings.links_safe bindings params depth
  exact Node.renderRoot_avoids linked resolved settings.context {} _ draft stopped ⟨name, rfl⟩

end SqlQuery
