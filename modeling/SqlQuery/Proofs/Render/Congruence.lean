import SqlQuery.Proofs.Render.Trace

/-!
Texts that differ only in what stands behind placeholders and parameters. If a relation between two
ways of writing holds of each link that a text comes to, in the scope that it has there, then it
holds of the whole text.
-/

namespace SqlQuery

/-- A relation between steps that holds of a sequence if it holds of its parts. What comes after a
step counts only for the results that the step can have. -/
structure Rendering.Congruence (rel : (α : Type) → Rendering α → Rendering α → Prop) : Prop where
  refl : ∀ {α : Type} (x : Rendering α), rel α x x
  bind : ∀ {α β : Type} {x y : Rendering α} {f g : α → Rendering β}, rel α x y →
    (∀ draft a final, x.outcome draft = (.ok a, final) → rel β (f a) (g a)) →
    rel β (x >>= f) (y >>= g)

namespace Rendering.Congruence

variable {rel : (α : Type) → Rendering α → Rendering α → Prop} {α β : Type}
  {x y : Rendering α} {f g : α → Rendering β}

theorem each (congruence : Congruence rel) (first : rel α x y) (rest : ∀ a, rel β (f a) (g a)) :
    rel β (x >>= f) (y >>= g) :=
  congruence.bind first fun _ a _ _ => rest a

theorem followed (congruence : Congruence rel) (first : rel α x y) : rel β (x >>= f) (y >>= f) :=
  congruence.each first fun a => congruence.refl (f a)

theorem eq : Congruence fun _ x y => x = y where
  refl x := rfl
  bind first rest := by
    subst first
    exact ExceptT.bind_congr_of_outcome rest

end Rendering.Congruence

open Rendering (Congruence)

/-- How the links write a placeholder or a parameter. -/
def Links.follow (links : Links) (name : String) : Mention → Context → Rendering String
  | .placeholder id => links.placeholder id name
  | .param name => links.param name
  | .tableParam name => links.param name

section

variable {ids : Identities} (store : Store) (settings : Settings) (name : String) (m : Mention)
  (ctx : Context)

theorem Settings.follow_zero :
    (settings.links store 0 ids).follow name m ctx =
      match settings.behind store m with
      | some _ => throw .unending
      | none => throw (m.missing name) := by
  cases m with
  | placeholder id =>
      simp only [Links.follow, links, Store.resolve, behind]
      cases store.binding? id <;> rfl
  | param name =>
      simp only [Links.follow, links, Settings.param, behind]
      cases settings.params.bind (·.lookup name) <;> rfl
  | tableParam name =>
      simp only [Links.follow, links, Settings.param, behind]
      cases settings.params.bind (·.lookup name) <;> rfl

theorem Settings.follow_succ (depth : Nat) :
    (settings.links store (depth + 1) ids).follow name m ctx =
      match settings.behind store m with
      | some node => node.render (settings.links store depth ids) ctx ids
      | none => throw (m.missing name) := by
  cases m with
  | placeholder id =>
      simp only [Links.follow, links, Store.resolve, behind]
      cases store.binding? id <;> rfl
  | param name =>
      simp only [Links.follow, links, Settings.param, behind]
      cases settings.params.bind (·.lookup name) <;> rfl
  | tableParam name =>
      simp only [Links.follow, links, Settings.param, behind]
      cases settings.params.bind (·.lookup name) <;> rfl

end

section

variable (rel : (α : Type) → Rendering α → Rendering α → Prop) (links more : Links)

/-- What is met in a scope is written in related ways. -/
def Links.RelatedAt (scope : Scope) : Event → Prop
  | .link m name => ∀ ctx : Context, ctx.scope = scope →
      rel String (links.follow name m ctx) (more.follow name m ctx)
  | _ => True

def Links.Related (outer : Scope) (steps : List Step) : Prop :=
  ∀ step ∈ steps, links.RelatedAt rel more (step.scope outer) step.event

def Expr.Congruent (e : Expr) : Prop :=
  ∀ ctx : Context, links.Related rel more ctx.scope e.trace →
    rel String (e.render links ctx) (e.render more ctx)

def Relation.Congruent (r : Relation) : Prop :=
  ∀ ctx : Context, links.Related rel more ctx.scope r.trace →
    rel String (r.render links ctx) (r.render more ctx)

end

variable {rel : (α : Type) → Rendering α → Rendering α → Prop} {links more : Links}

/-! Traces in parts. -/

namespace Links

variable {outer : Scope}

theorem related_append {first second : List Step} :
    links.Related rel more outer (first ++ second) ↔
      links.Related rel more outer first ∧ links.Related rel more outer second :=
  List.forall_mem_append

theorem related_within {added : Scope} {steps : List Step} :
    links.Related rel more outer (steps.map (Step.within added)) ↔
      links.Related rel more (outer ++ added) steps := by
  simp only [Related, List.forall_mem_map, Step.scope_within, Step.event_within]

theorem related_detach {steps : List Step} :
    links.Related rel more outer (steps.map Step.detach) ↔ links.Related rel more [] steps := by
  simp only [Related, List.forall_mem_map, Step.scope_detach]
  exact Iff.rfl

theorem related_link {m : Mention} {name : String} {ctx : Context}
    (related : links.Related rel more ctx.scope [{ event := .link m name }]) :
    rel String (links.follow name m ctx) (more.follow name m ctx) := by
  have here := related _ (List.mem_singleton_self _)
  apply here ctx
  simp [Step.scope]

theorem related_of_forall
    (placeholder : ∀ id name ctx,
      rel String (links.placeholder id name ctx) (more.placeholder id name ctx))
    (param : ∀ name ctx, rel String (links.param name ctx) (more.param name ctx))
    (steps : List Step) : links.Related rel more outer steps := by
  intro step _
  cases step.event with
  | link m name =>
      intro ctx _
      cases m with
      | placeholder id => exact placeholder id name ctx
      | param name => exact param name ctx
      | tableParam name => exact param name ctx
  | _ => trivial

end Links

section Parts

variable (congruence : Congruence rel) (ctx : Context)

include congruence

theorem Relation.Congruent.query {r : Relation} (congruent : r.Congruent rel links more)
    (related : links.Related rel more ctx.scope r.trace) :
    rel String (ctx.query r fun ctx => r.render links ctx)
      (ctx.query r fun ctx => r.render more ctx) := by
  rw [Context.query_omitted, Context.query_omitted]
  split
  · exact congruent ctx related
  · exact congruence.followed (congruent (ctx.placed true ctx.inJoin) related)

theorem Expr.renderAll_congruent {es : List Expr} (congruent : ∀ e ∈ es, e.Congruent rel links more)
    (related : links.Related rel more ctx.scope (Expr.traceOfAll es)) :
    rel (List String) (Expr.renderAll links ctx es) (Expr.renderAll more ctx es) := by
  induction es with
  | nil => exact congruence.refl _
  | cons e rest ih =>
      obtain ⟨head, tail⟩ := List.forall_mem_cons.mp congruent
      rw [Expr.traceOfAll, Links.related_append] at related
      rw [Expr.renderAll, Expr.renderAll]
      apply congruence.each (head ctx related.1)
      intro text
      exact congruence.followed (ih tail related.2)

theorem Relation.renderAll_congruent {rs : List Relation}
    (congruent : ∀ r ∈ rs, r.Congruent rel links more)
    (related : links.Related rel more ctx.scope (Relation.traceOfAll rs)) :
    rel (List String) (Relation.renderAll links ctx rs) (Relation.renderAll more ctx rs) := by
  induction rs with
  | nil => exact congruence.refl _
  | cons r rest ih =>
      obtain ⟨head, tail⟩ := List.forall_mem_cons.mp congruent
      rw [Relation.traceOfAll, Links.related_append] at related
      rw [Relation.renderAll, Relation.renderAll]
      apply congruence.each (head ctx related.1)
      intro text
      exact congruence.followed (ih tail related.2)

theorem Expr.renderBranches_congruent {branches : List (BranchOf Expr)}
    (congruent : ∀ b ∈ branches, b.condition.Congruent rel links more ∧
      b.result.Congruent rel links more)
    (related : links.Related rel more ctx.scope (Expr.traceOfBranches branches)) :
    rel String (Expr.renderBranches links ctx branches)
      (Expr.renderBranches more ctx branches) := by
  induction branches with
  | nil => exact congruence.refl _
  | cons branch rest ih =>
      obtain ⟨head, tail⟩ := List.forall_mem_cons.mp congruent
      rw [Expr.traceOfBranches, Links.related_append, Links.related_append] at related
      rw [Expr.renderBranches, Expr.renderBranches]
      apply congruence.each (head.1 ctx related.1)
      intro condition
      apply congruence.each (head.2 ctx related.2.1)
      intro result
      exact congruence.followed (ih tail related.2.2)

theorem Expr.renderElse_congruent {otherwise : Option Expr}
    (congruent : ∀ e, otherwise = some e → e.Congruent rel links more)
    (related : links.Related rel more ctx.scope (Expr.traceOfElse otherwise)) :
    rel String (Expr.renderElse links ctx otherwise) (Expr.renderElse more ctx otherwise) := by
  cases otherwise with
  | none => exact congruence.refl _
  | some e => exact congruence.followed (congruent e rfl ctx related)

theorem Expr.renderSelected_congruent {columns : Option (List Expr)}
    (congruent : ∀ es, columns = some es → ∀ e ∈ es, e.Congruent rel links more)
    (related : links.Related rel more ctx.scope (Expr.traceOfOptional columns)) :
    rel (List String) (Expr.renderSelected links ctx columns)
      (Expr.renderSelected more ctx columns) := by
  cases columns with
  | none => exact congruence.refl _
  | some es => exact Expr.renderAll_congruent congruence _ (congruent es rfl) related

theorem Expr.renderJoined_congruent {columns : Option (List Expr)}
    (congruent : ∀ es, columns = some es → ∀ e ∈ es, e.Congruent rel links more)
    (related : links.Related rel more ctx.scope (Expr.traceOfOptional columns)) :
    rel String (Expr.renderJoined links ctx columns) (Expr.renderJoined more ctx columns) := by
  cases columns with
  | none => exact congruence.refl _
  | some es =>
      exact congruence.followed (Expr.renderAll_congruent congruence _ (congruent es rfl) related)

theorem Relation.renderFrom_congruent {source : Option Relation}
    (congruent : ∀ r, source = some r → r.Congruent rel links more)
    (related : links.Related rel more ctx.scope (Relation.traceOfOptional source)) :
    rel (Option String) (Relation.renderFrom links ctx source)
      (Relation.renderFrom more ctx source) := by
  cases source with
  | none => exact congruence.refl _
  | some r => exact congruence.followed (congruent r rfl ctx related)

theorem selectText_congruent {dialect : Dialect} {distinct : Bool} {limit : Option UInt64}
    {columns columns' filters filters' groupBy groupBy' having having' orderBy orderBy' :
      Rendering (List String)}
    {source source' : Rendering (Option String)} (inColumns : rel _ columns columns')
    (inSource : rel _ source source') (inFilters : rel _ filters filters')
    (inGroupBy : rel _ groupBy groupBy') (inHaving : rel _ having having')
    (inOrderBy : rel _ orderBy orderBy') :
    rel String
      (selectText dialect distinct limit columns source filters groupBy having orderBy)
      (selectText dialect distinct limit columns' source' filters' groupBy' having' orderBy') := by
  apply congruence.each inColumns
  intro columnTexts
  apply congruence.each inSource
  intro sourceText
  apply congruence.each inFilters
  intro filterTexts
  apply congruence.each inGroupBy
  intro groupByTexts
  apply congruence.each inHaving
  intro havingTexts
  exact congruence.followed inOrderBy

/-! Whole queries. -/

theorem Relation.select_congruent {s : Select}
    (parts : s.Parts (Expr.Congruent rel links more) (Relation.Congruent rel links more)) :
    (Relation.select s).Congruent rel links more := by
  intro ctx related
  simp only [Relation.trace_select, Links.related_append] at related
  obtain ⟨ofColumns, ofTable, ofFilters, ofGroupBy, ofHaving, ofOrderBy⟩ := related
  rw [Relation.render_select, Relation.render_select]
  apply congruence.followed
  exact selectText_congruent congruence
    (Expr.renderSelected_congruent congruence _ parts.columns ofColumns)
    (Relation.renderFrom_congruent congruence _ parts.table ofTable)
    (Expr.renderAll_congruent congruence _ parts.filters ofFilters)
    (Expr.renderAll_congruent congruence _ parts.groupBy ofGroupBy)
    (Expr.renderAll_congruent congruence _ parts.having ofHaving)
    (Expr.renderAll_congruent congruence _ parts.orderBy ofOrderBy)

theorem Relation.join_congruent {id : RelationId} {sources : List Relation} {kind : JoinKind}
    {on : List Expr} {columns : Option (List Expr)}
    (inSources : ∀ r ∈ sources, r.Congruent rel links more)
    (inOn : ∀ e ∈ on, e.Congruent rel links more)
    (inColumns : ∀ es, columns = some es → ∀ e ∈ es, e.Congruent rel links more) :
    (Relation.join ⟨id, sources, kind, on, columns⟩).Congruent rel links more := by
  intro ctx related
  rw [Relation.trace, Links.related_within] at related
  rw [Relation.render_join, Relation.render_join]
  apply congruence.bind (congruence.refl (joinAliases sources))
  intro draft aliases middle named
  -- The aliases that the sources get are known only now, and the scope inside the join with them.
  have scope : (ctx.joined aliases).scope = ctx.scope ++ joinScope sources := by
    rw [Context.scope_joined, scope_of_joinAliases named]
  rw [← scope, Links.related_append, Links.related_append] at related
  obtain ⟨ofSources, ofOn, ofColumns⟩ := related
  apply congruence.each (Relation.renderAll_congruent congruence _ inSources ofSources)
  intro texts
  apply congruence.each (Expr.renderAll_congruent congruence _ inOn ofOn)
  intro onTexts
  exact congruence.followed (Expr.renderJoined_congruent congruence _ inColumns ofColumns)

theorem Relation.grouping_congruent {id : RelationId} {table : Relation}
    {keys values having : List Expr} (inTable : table.Congruent rel links more)
    (parts : ∀ s, table = .select s →
      s.Parts (Expr.Congruent rel links more) (Relation.Congruent rel links more))
    (inKeys : ∀ e ∈ keys, e.Congruent rel links more)
    (inValues : ∀ e ∈ values, e.Congruent rel links more)
    (inHaving : ∀ e ∈ having, e.Congruent rel links more) :
    (Relation.grouping ⟨id, table, keys, values, having⟩).Congruent rel links more := by
  intro ctx related
  rcases table.plain_or_nested with ⟨s, rfl, plain⟩ | nested
  · have selectParts := parts s rfl
    simp only [Relation.trace_grouping_plain id s keys values having plain,
      Links.related_append] at related
    obtain ⟨ofKeys, ofValues, ofTable, ofFilters, ofHaving, ofOrderBy⟩ := related
    rw [Relation.render_grouping_plain links ctx id s keys values having plain,
      Relation.render_grouping_plain more ctx id s keys values having plain]
    apply congruence.followed
    refine selectText_congruent congruence ?_
      (Relation.renderFrom_congruent congruence _ selectParts.table ofTable)
      (Expr.renderAll_congruent congruence _ selectParts.filters ofFilters) (congruence.refl _)
      (Expr.renderAll_congruent congruence _ inHaving ofHaving)
      (Expr.renderAll_congruent congruence _ selectParts.orderBy ofOrderBy)
    apply congruence.each
      (Expr.renderAll_congruent congruence (ctx.placed true ctx.inJoin) inKeys ofKeys)
    intro keyTexts
    exact congruence.followed (Expr.renderAll_congruent congruence _ inValues ofValues)
  · simp only [Relation.trace_grouping_nested id table keys values having nested,
      Links.related_append] at related
    obtain ⟨ofKeys, ofValues, ofTable, ofHaving⟩ := related
    rw [Relation.render_grouping_nested links ctx id table keys values having nested,
      Relation.render_grouping_nested more ctx id table keys values having nested]
    apply congruence.each (Expr.renderAll_congruent congruence _ inKeys ofKeys)
    intro keyTexts
    apply congruence.each (Expr.renderAll_congruent congruence _ inValues ofValues)
    intro valueTexts
    apply congruence.each (inTable (ctx.placed true false) ofTable)
    intro source
    exact congruence.followed (Expr.renderAll_congruent congruence _ inHaving ofHaving)

end Parts

variable (links more) in
theorem Rendering.Congruence.induction (congruence : Congruence rel) :
    QueryInduction (Expr.Congruent rel links more) (Relation.Congruent rel links more) where
  value v ctx _ := congruence.refl _
  code sql ctx _ := congruence.refl _
  column c ctx _ := congruence.refl _
  placeholder id name ctx related := Links.related_link related
  aliased e name inner ctx related := by
    rw [Expr.render, Expr.render]
    exact congruence.followed (inner ctx related)
  concat items separator inner ctx related := by
    rw [Expr.render, Expr.render]
    rw [Expr.trace] at related
    cases items with
    | nil => exact congruence.refl _
    | cons e rest =>
        exact congruence.followed (Expr.renderAll_congruent congruence ctx inner related)
  countAll distinct ctx _ := congruence.refl _
  count e distinct inner ctx related := by
    rw [Expr.render_count, Expr.render_count]
    exact congruence.followed (inner ctx related)
  call function arguments inner ctx related := by
    rw [Expr.render, Expr.render]
    exact congruence.followed (Expr.renderAll_congruent congruence ctx inner related)
  case branches otherwise inBranches inElse ctx related := by
    rw [Expr.render_case, Expr.render_case]
    rw [Expr.trace] at related
    split
    · exact congruence.refl _
    · next some =>
        rw [if_neg some, Links.related_append] at related
        apply congruence.each (Expr.renderBranches_congruent congruence ctx inBranches related.1)
        intro texts
        exact congruence.followed (Expr.renderElse_congruent congruence ctx inElse related.2)
  isDistinctFrom left right inLeft inRight ctx related := by
    rw [Expr.trace, Links.related_append] at related
    rw [Expr.render, Expr.render]
    apply congruence.each (inLeft ctx related.1)
    intro leftText
    exact congruence.followed (inRight ctx related.2)
  binary operator arguments inner ctx related := by
    rw [Expr.render, Expr.render]
    exact congruence.followed (Expr.renderAll_congruent congruence ctx inner related)
  negate e inner ctx related := by
    rw [Expr.render, Expr.render]
    exact congruence.followed (inner ctx related)
  isIn e list inner inList ctx related := by
    rw [Expr.trace, Links.related_append] at related
    rw [Expr.render, Expr.render]
    apply congruence.each (inner ctx related.1)
    intro text
    exact congruence.followed (Expr.renderAll_congruent congruence ctx inList related.2)
  cast e type inner ctx related := by
    rw [Expr.render, Expr.render]
    exact congruence.followed (inner ctx related)
  random ctx _ := congruence.refl _
  currentTimestamp ctx _ := congruence.refl _
  param name ctx related := Links.related_link related
  subquery r inner ctx related := by
    rw [Expr.render, Expr.render]
    exact congruence.followed (inner.query congruence _ related)
  table t ctx _ := congruence.refl _
  tableAlias id source name inner ctx related := by
    rw [Relation.render, Relation.render]
    exact congruence.followed (inner (ctx.placed false true) related)
  join id sources kind on columns inSources inOn inColumns :=
    Relation.join_congruent congruence inSources inOn inColumns
  grouping id table keys values having inTable parts inKeys inValues inHaving :=
    Relation.grouping_congruent congruence inTable parts inKeys inValues inHaving
  setOperation id operator left right inLeft inRight ctx related := by
    rw [Relation.trace, Links.related_append] at related
    rw [Relation.render, Relation.render]
    apply congruence.each (inLeft.query congruence (ctx.placed false ctx.inJoin) related.1)
    intro leftText
    exact congruence.followed (inRight.query congruence _ related.2)
  select s parts := Relation.select_congruent congruence parts
  cte id source name params inner ctx related := by
    rw [Relation.trace, Links.related_detach] at related
    rw [Relation.render_cte, Relation.render_cte]
    exact congruence.followed (inner.query congruence _ related)
  tableParam p ctx related := Links.related_link related

namespace Rendering.Congruence

variable (congruence : Congruence rel)

include congruence

theorem render (node : Node) (ctx : Context)
    (related : links.Related rel more ctx.scope node.trace) :
    rel String (node.render links ctx) (node.render more ctx) := by
  have induction := congruence.induction links more
  cases node with
  | expr e => exact induction.expr e ctx related
  | relation r => exact induction.relation r ctx related
  | statement s =>
      cases s with
      | create s =>
          obtain ⟨table, source, ifNotExists, primaryKeys⟩ := s
          simp only [Node.render, Statement.render, CreateTable.render]
          cases source with
          | some source => exact congruence.followed (induction.relation source ctx related)
          | none => exact congruence.refl _
      | insert s =>
          obtain ⟨table, source, columns⟩ := s
          simp only [Node.render, Statement.render, Insert.render]
          cases source with
          | rows rows => exact congruence.refl _
          | query r => exact congruence.followed (induction.relation r ctx related)
      | explain query =>
          simp only [Node.render, Statement.render]
          exact congruence.followed ((induction.relation query).query congruence ctx related)
      | _ => exact congruence.refl _

theorem renderRoot (node : Node) (ctx : Context)
    (related : links.Related rel more ctx.scope node.trace) :
    rel String (node.renderRoot links ctx) (node.renderRoot more ctx) := by
  have induction := congruence.induction links more
  cases node with
  | expr e =>
      by_cases code : ∃ sql, e = .code sql
      · obtain ⟨sql, rfl⟩ := code
        exact congruence.refl _
      · have notCode : ∀ sql, e ≠ .code sql := fun sql same => code ⟨sql, same⟩
        rw [Node.renderRoot_expr links ctx notCode, Node.renderRoot_expr more ctx notCode]
        apply congruence.followed
        exact selectText_congruent congruence
          (congruence.followed (induction.expr e (ctx.placed true ctx.inJoin) related))
          (congruence.refl _) (congruence.refl _) (congruence.refl _) (congruence.refl _)
          (congruence.refl _)
  | relation r => exact (induction.relation r).query congruence ctx related
  | statement s => exact congruence.render (.statement s) ctx related

end Rendering.Congruence

end SqlQuery
