import Mathlib.Data.List.Basic
import SqlQuery.Proofs.Query.Substitution
import SqlQuery.Proofs.Render.JoinScope

/-!
The text of a query after a substitution. It is the text before, if what stands behind placeholders
and parameters is: identities of relations are only compared, and an expression that stands for a
parameter is written at the same place as before.
-/

namespace SqlQuery

variable {f : RelationId → RelationId}

/-! Aliases of relations with other identities. -/

def ScopedAlias.rename (f : RelationId → RelationId) (a : ScopedAlias) : ScopedAlias :=
  { a with owners := a.owners.map f }

def Context.rename (f : RelationId → RelationId) (ctx : Context) : Context :=
  { ctx with aliases := ctx.aliases.map (ScopedAlias.rename f) }

namespace Context

variable (ctx : Context)

@[simp] theorem rename_dialect : (ctx.rename f).dialect = ctx.dialect := rfl

@[simp] theorem rename_autocommit : (ctx.rename f).autocommit = ctx.autocommit := rfl

@[simp] theorem rename_inJoin : (ctx.rename f).inJoin = ctx.inJoin := rfl

@[simp] theorem rename_quote : (ctx.rename f).quote = ctx.quote := rfl

@[simp] theorem rename_enclose : (ctx.rename f).enclose = ctx.enclose := rfl

@[simp] theorem rename_placed (inSelect inJoin : Bool) :
    (ctx.rename f).placed inSelect inJoin = (ctx.placed inSelect inJoin).rename f := rfl

@[simp] theorem rename_defining : (ctx.rename f).defining = ctx.defining.rename f := rfl

@[simp] theorem rename_joined (aliases : List ScopedAlias) :
    (ctx.rename f).joined (aliases.map (ScopedAlias.rename f)) = (ctx.joined aliases).rename f := by
  simp only [joined, rename, placed, List.map_append]

end Context

theorem ScopedAlias.owning_rename (injective : Function.Injective f) (aliases : List ScopedAlias)
    (owner : RelationId) :
    owning (aliases.map (rename f)) (f owner) = (owning aliases owner).map (rename f) := by
  have same (a : ScopedAlias) :
      (a.rename f).owners.contains (f owner) = a.owners.contains owner := by
    rw [Bool.eq_iff_iff, List.contains_iff_mem, List.contains_iff_mem]
    exact List.mem_map_of_injective injective
  rw [owning, owning, List.filter_map]
  congr 1
  exact List.filter_congr fun a _ => same a

theorem Context.column_rename (injective : Function.Injective f) (ctx : Context)
    (owner : RelationId) (name : String) :
    (ctx.rename f).column (f owner) name = ctx.column owner name := by
  have candidates : ScopedAlias.candidates (ctx.aliases.map (ScopedAlias.rename f)) (f owner) =
      (ScopedAlias.candidates ctx.aliases owner).map (ScopedAlias.rename f) := by
    rw [ScopedAlias.candidates, ScopedAlias.candidates, List.length_map,
      ScopedAlias.owning_rename injective]
    split <;> rfl
  rw [column_eq_columnAfter, column_eq_columnAfter]
  change (ctx.rename f).columnAfter name (ScopedAlias.candidates (ctx.aliases.map _) (f owner)) = _
  rw [candidates]
  rcases ScopedAlias.candidates ctx.aliases owner with _ | ⟨_, _ | ⟨_, _⟩⟩
  · rfl
  · rfl
  · rfl

theorem sourceAlias_substitute (σ : Substitution) (r : Relation) :
    sourceAlias (r.substitute σ) = (do return (← sourceAlias r).rename σ.relation) := by
  cases r with
  | aliased a =>
      obtain ⟨id, source, name⟩ := a
      simp [Relation.substitute, sourceAlias, ScopedAlias.rename]
  | _ => rfl

theorem joinAliases_substitute (σ : Substitution) (sources : List Relation) :
    joinAliases (sources.map (Relation.substitute σ)) =
      (do return (← joinAliases sources).map (ScopedAlias.rename σ.relation)) := by
  induction sources with
  | nil => rfl
  | cons r rest ih =>
      rw [List.map_cons, joinAliases_cons, joinAliases_cons, sourceAlias_substitute, ih]
      simp only [bind_assoc, pure_bind, List.map_cons]

theorem aliasedSource_substitute (σ : Substitution) (ctx : Context) (r : Relation)
    (a : ScopedAlias) (text : String) :
    aliasedSource (ctx.rename σ.relation) (r.substitute σ, a.rename σ.relation) text =
      aliasedSource ctx (r, a) text := by
  cases r <;> rfl

theorem joinText_substitute (σ : Substitution) (ctx : Context) (kind : JoinKind)
    (sources : List Relation) (aliases : List ScopedAlias) (texts on : List String)
    (columns : String) :
    joinText (ctx.rename σ.relation) kind (sources.map (Relation.substitute σ))
        (aliases.map (ScopedAlias.rename σ.relation)) texts on columns =
      joinText ctx kind sources aliases texts on columns := by
  have items : ∀ (sources : List Relation) (aliases : List ScopedAlias) (texts : List String),
      ((sources.map (Relation.substitute σ)).zip
          (aliases.map (ScopedAlias.rename σ.relation))).zipWith
            (aliasedSource (ctx.rename σ.relation)) texts =
        (sources.zip aliases).zipWith (aliasedSource ctx) texts := by
    intro sources aliases texts
    rw [List.zip_map, List.zipWith_map_left]
    congr 1
    funext pair text
    exact aliasedSource_substitute σ ctx pair.1 pair.2 text
  rw [joinText, joinText, items]

/-! The parts of a query. -/

section

variable {σ : Substitution} {links after : Links}

theorem Expr.renderAll_substitute {es : List Expr}
    (same : ∀ e ∈ es, ∀ ctx,
      (e.substitute σ).render after (ctx.rename σ.relation) = e.render links ctx) (ctx : Context) :
    Expr.renderAll after (ctx.rename σ.relation) (es.map (Expr.substitute σ)) =
      Expr.renderAll links ctx es := by
  induction es with
  | nil => rfl
  | cons e rest ih =>
      obtain ⟨head, tail⟩ := List.forall_mem_cons.mp same
      simp only [List.map_cons, Expr.renderAll]
      rw [head ctx, ih tail]

theorem Expr.renderBranches_substitute {branches : List (BranchOf Expr)}
    (same : ∀ b ∈ branches, ∀ ctx,
      (b.condition.substitute σ).render after (ctx.rename σ.relation) =
        b.condition.render links ctx ∧
      (b.result.substitute σ).render after (ctx.rename σ.relation) = b.result.render links ctx)
    (ctx : Context) :
    Expr.renderBranches after (ctx.rename σ.relation) (branches.map (BranchOf.substitute σ)) =
      Expr.renderBranches links ctx branches := by
  induction branches with
  | nil => rfl
  | cons branch rest ih =>
      obtain ⟨head, tail⟩ := List.forall_mem_cons.mp same
      obtain ⟨condition, result⟩ := head ctx
      simp only [List.map_cons, BranchOf.substitute, Expr.renderBranches]
      rw [condition, result, ih tail]

theorem Relation.renderAll_substitute {rs : List Relation}
    (same : ∀ r ∈ rs, ∀ ctx,
      (r.substitute σ).render after (ctx.rename σ.relation) = r.render links ctx) (ctx : Context) :
    Relation.renderAll after (ctx.rename σ.relation) (rs.map (Relation.substitute σ)) =
      Relation.renderAll links ctx rs := by
  induction rs with
  | nil => rfl
  | cons r rest ih =>
      obtain ⟨head, tail⟩ := List.forall_mem_cons.mp same
      simp only [List.map_cons, Relation.renderAll]
      rw [head ctx, ih tail]

theorem Relation.query_substitute {r : Relation}
    (same : ∀ ctx, (r.substitute σ).render after (ctx.rename σ.relation) = r.render links ctx)
    (ctx : Context) :
    ((ctx.rename σ.relation).query (r.substitute σ) fun ctx => (r.substitute σ).render after ctx) =
      ctx.query r fun ctx => r.render links ctx := by
  simp only [Context.query_omitted, Relation.isQuery_substitute]
  split
  · exact same ctx
  · simp only [Context.rename_placed, Context.rename_inJoin, Context.rename_enclose, same]

end

/-! Whole queries. -/

/-- The links after a substitution write what the links before it do, for all that is allowed to be
mentioned. -/
structure Substitution.Keeps (σ : Substitution) (allowed : Mention → Prop) (after links : Links) :
    Prop where
  injective : Function.Injective σ.relation
  placeholder : ∀ id name ctx, allowed (.placeholder id) →
    after.placeholder id name (ctx.rename σ.relation) = links.placeholder id name ctx
  param : ∀ name ctx, allowed (.param name) →
    (σ.param name).render after (ctx.rename σ.relation) = links.param name ctx
  tableParam : ∀ name ctx, allowed (.tableParam name) →
    after.param name (ctx.rename σ.relation) = links.param name ctx

section

variable (σ : Substitution) (allowed : Mention → Prop) (after links : Links)

def Expr.Keeps (e : Expr) : Prop :=
  e.MentionsOnly allowed →
    ∀ ctx, (e.substitute σ).render after (ctx.rename σ.relation) = e.render links ctx

def Relation.Keeps (r : Relation) : Prop :=
  r.MentionsOnly allowed →
    ∀ ctx, (r.substitute σ).render after (ctx.rename σ.relation) = r.render links ctx

end

variable {σ : Substitution} {allowed : Mention → Prop} {after links : Links}

theorem Expr.Keeps.all {es : List Expr} (keep : ∀ e ∈ es, e.Keeps σ allowed after links)
    (only : ∀ e ∈ es, e.MentionsOnly allowed) (ctx : Context) :
    Expr.renderAll after (ctx.rename σ.relation) (es.map (Expr.substitute σ)) =
      Expr.renderAll links ctx es :=
  Expr.renderAll_substitute (fun e listed => keep e listed (only e listed)) ctx

theorem Expr.Keeps.selected {columns : Option (List Expr)}
    (keep : ∀ es, columns = some es → ∀ e ∈ es, e.Keeps σ allowed after links)
    (only : ∀ e ∈ columns.getD [], e.MentionsOnly allowed) (ctx : Context) :
    Expr.renderSelected after (ctx.rename σ.relation)
        (columns.map (List.map (Expr.substitute σ))) =
      Expr.renderSelected links ctx columns := by
  cases columns with
  | none => rfl
  | some es => exact Expr.Keeps.all (keep es rfl) only ctx

theorem Expr.Keeps.joined {columns : Option (List Expr)}
    (keep : ∀ es, columns = some es → ∀ e ∈ es, e.Keeps σ allowed after links)
    (only : ∀ e ∈ columns.getD [], e.MentionsOnly allowed) (ctx : Context) :
    Expr.renderJoined after (ctx.rename σ.relation)
        (columns.map (List.map (Expr.substitute σ))) =
      Expr.renderJoined links ctx columns := by
  cases columns with
  | none => rfl
  | some es =>
      simp only [Option.map_some, Expr.renderJoined]
      rw [Expr.Keeps.all (keep es rfl) only ctx]

theorem Relation.Keeps.from {source : Option Relation}
    (keep : ∀ r, source = some r → r.Keeps σ allowed after links)
    (only : ∀ r ∈ source.toList, r.MentionsOnly allowed) (ctx : Context) :
    Relation.renderFrom after (ctx.rename σ.relation) (source.map (Relation.substitute σ)) =
      Relation.renderFrom links ctx source := by
  cases source with
  | none => rfl
  | some r =>
      have same := keep r rfl (only r (List.mem_singleton_self r)) ctx
      simp only [Option.map_some, Relation.renderFrom]
      rw [same]

theorem Relation.select_keeps {s : Select}
    (parts : s.Parts (Expr.Keeps σ allowed after links) (Relation.Keeps σ allowed after links)) :
    (Relation.select s).Keeps σ allowed after links := by
  intro only ctx
  have exprs := only.exprs
  simp only [Relation.exprs, SelectOf.exprs, List.forall_mem_append] at exprs
  obtain ⟨⟨⟨⟨columns, filters⟩, groupBy⟩, having⟩, orderBy⟩ := exprs
  simp only [Relation.substitute_select, SelectOf.substitute, Relation.render_select,
    Context.rename_placed, Context.rename_inJoin, Context.rename_dialect, Context.rename_enclose,
    Expr.Keeps.selected parts.columns columns, Relation.Keeps.from parts.table only.sources,
    Expr.Keeps.all parts.filters filters, Expr.Keeps.all parts.groupBy groupBy,
    Expr.Keeps.all parts.having having, Expr.Keeps.all parts.orderBy orderBy]

theorem Relation.join_keeps {id : RelationId} {sources : List Relation} {kind : JoinKind}
    {on : List Expr} {columns : Option (List Expr)}
    (sourcesKeep : ∀ r ∈ sources, r.Keeps σ allowed after links)
    (onKeep : ∀ e ∈ on, e.Keeps σ allowed after links)
    (columnsKeep : ∀ es, columns = some es → ∀ e ∈ es, e.Keeps σ allowed after links) :
    (Relation.join ⟨id, sources, kind, on, columns⟩).Keeps σ allowed after links := by
  intro only ctx
  have exprs := only.exprs
  simp only [Relation.exprs, List.forall_mem_append] at exprs
  obtain ⟨onOnly, columnsOnly⟩ := exprs
  have texts := Relation.renderAll_substitute fun r listed =>
    sourcesKeep r listed (only.sources r listed)
  rw [Relation.substitute, Relation.substituteAll_eq_map, Expr.substituteAll_eq_map,
    Expr.substituteColumns_eq_map, Relation.render_join, Relation.render_join,
    joinAliases_substitute, bind_assoc]
  simp only [pure_bind, Context.rename_joined, Context.rename_enclose, joinText_substitute, texts,
    Expr.Keeps.all onKeep onOnly, Expr.Keeps.joined columnsKeep columnsOnly]

theorem SelectOf.isPlain_substitute (σ : Substitution) (s : Select) :
    (s.substitute σ).isPlain = s.isPlain := by
  simp only [SelectOf.isPlain, SelectOf.substitute, Option.isNone_map, List.isEmpty_map]

theorem keyPositions_map (keys : List Expr) (g : Expr → Expr) :
    keyPositions (keys.map g) = keyPositions keys := by
  rw [keyPositions, keyPositions, List.length_map]

theorem Relation.substitute_grouping (σ : Substitution) (id : RelationId) (table : Relation)
    (keys values having : List Expr) :
    (Relation.grouping ⟨id, table, keys, values, having⟩).substitute σ =
      .grouping ⟨σ.relation id, table.substitute σ, keys.map (Expr.substitute σ),
        values.map (Expr.substitute σ), having.map (Expr.substitute σ)⟩ := by
  simp only [Relation.substitute, Expr.substituteAll_eq_map]

theorem Relation.grouping_keeps {id : RelationId} {table : Relation}
    {keys values having : List Expr} (tableKeeps : table.Keeps σ allowed after links)
    (parts : ∀ s, table = .select s →
      s.Parts (Expr.Keeps σ allowed after links) (Relation.Keeps σ allowed after links))
    (keysKeep : ∀ e ∈ keys, e.Keeps σ allowed after links)
    (valuesKeep : ∀ e ∈ values, e.Keeps σ allowed after links)
    (havingKeeps : ∀ e ∈ having, e.Keeps σ allowed after links) :
    (Relation.grouping ⟨id, table, keys, values, having⟩).Keeps σ allowed after links := by
  intro only ctx
  have exprs := only.exprs
  simp only [Relation.exprs, List.forall_mem_append] at exprs
  obtain ⟨⟨keysOnly, valuesOnly⟩, havingOnly⟩ := exprs
  have tableOnly := only.sources table (List.mem_singleton_self table)
  have keyTexts := Expr.Keeps.all keysKeep keysOnly
  have valueTexts := Expr.Keeps.all valuesKeep valuesOnly
  have havingTexts := Expr.Keeps.all havingKeeps havingOnly
  rcases table.plain_or_nested with ⟨s, rfl, plain⟩ | nested
  · have selectParts := parts s rfl
    have selectExprs := tableOnly.exprs
    simp only [Relation.exprs, SelectOf.exprs, List.forall_mem_append] at selectExprs
    obtain ⟨⟨⟨⟨_, filters⟩, _⟩, _⟩, orderBy⟩ := selectExprs
    have plainAfter : (s.substitute σ).isPlain = true := by
      rw [SelectOf.isPlain_substitute, plain]
    rw [Relation.substitute_grouping, Relation.substitute_select,
      Relation.render_grouping_plain _ _ _ _ _ _ _ plainAfter,
      Relation.render_grouping_plain _ _ _ _ _ _ _ plain]
    simp only [SelectOf.substitute, Context.rename_placed, Context.rename_inJoin,
      Context.rename_dialect, Context.rename_enclose, keyPositions_map, keyTexts, valueTexts,
      havingTexts, Relation.Keeps.from selectParts.table tableOnly.sources,
      Expr.Keeps.all selectParts.filters filters, Expr.Keeps.all selectParts.orderBy orderBy]
  · have nestedAfter : ∀ s, table.substitute σ = .select s → s.isPlain = false := by
      intro s isSelect
      cases table with
      | select inner =>
          rw [Relation.substitute_select] at isSelect
          cases isSelect
          rw [SelectOf.isPlain_substitute, nested inner rfl]
      | _ => cases isSelect
    rw [Relation.substitute_grouping, Relation.render_grouping_nested _ _ _ _ _ _ _ nestedAfter,
      Relation.render_grouping_nested _ _ _ _ _ _ _ nested]
    simp only [groupingText, Context.rename_placed, Context.rename_enclose, keyPositions_map,
      keyTexts, valueTexts, havingTexts, tableKeeps tableOnly]

theorem Substitution.Keeps.induction (linked : σ.Keeps allowed after links) :
    QueryInduction (Expr.Keeps σ allowed after links) (Relation.Keeps σ allowed after links) where
  value _ _ _ := rfl
  code _ _ _ := rfl
  column c _ ctx := by
    obtain ⟨source, name⟩ := c
    have column := Context.column_rename linked.injective ctx source.id name
    simp only [Expr.substitute, Expr.render, Relation.id_substitute]
    exact congrArg liftM column
  placeholder id name only ctx := linked.placeholder id name ctx only.placeholder
  aliased e name keeps only ctx := by
    have text := keeps (only.children e (List.mem_singleton_self e)) ctx
    simp only [Expr.substitute, Expr.render, text, Context.rename_quote]
  concat items separator keep only ctx := by
    have texts := Expr.Keeps.all keep only.children ctx
    simp only [Expr.substitute, Expr.substituteAll_eq_map, Expr.render, texts,
      Context.rename_dialect]
  countAll _ _ _ := rfl
  count e distinct keeps only ctx := by
    have text := keeps (only.children e (List.mem_singleton_self e)) ctx
    simp only [Expr.substitute, Expr.substituteOptional, Expr.render_count, Expr.renderCounted,
      text]
  call function arguments keep only ctx := by
    have texts := Expr.Keeps.all keep only.children ctx
    simp only [Expr.substitute, Expr.substituteAll_eq_map, Expr.render, texts]
  case branches otherwise branchesKeep otherwiseKeeps only ctx := by
    have children := only.children
    simp only [Expr.children, List.forall_mem_append, List.forall_mem_flatMap,
      List.forall_mem_cons] at children
    obtain ⟨branchesOnly, otherwiseOnly⟩ := children
    have branchTexts := Expr.renderBranches_substitute fun b listed ctx =>
      ⟨(branchesKeep b listed).1 (branchesOnly b listed).1 ctx,
        (branchesKeep b listed).2 (branchesOnly b listed).2.1 ctx⟩
    have otherwiseText : Expr.renderElse after (ctx.rename σ.relation)
        (otherwise.map (Expr.substitute σ)) = Expr.renderElse links ctx otherwise := by
      cases otherwise with
      | none => rfl
      | some e =>
          have text := otherwiseKeeps e rfl (otherwiseOnly e (List.mem_singleton_self e)) ctx
          simp only [Option.map_some, Expr.renderElse, text]
    simp only [Expr.substitute, Expr.substituteBranches_eq_map, Expr.substituteOptional_eq_map,
      Expr.render_case, List.isEmpty_map, branchTexts, otherwiseText]
  isDistinctFrom left right leftKeeps rightKeeps only ctx := by
    have children := only.children
    simp only [Expr.children, List.forall_mem_cons] at children
    obtain ⟨leftOnly, rightOnly, _⟩ := children
    simp only [Expr.substitute, Expr.render, leftKeeps leftOnly ctx, rightKeeps rightOnly ctx,
      Context.rename_dialect]
  binary operator arguments keep only ctx := by
    have texts := Expr.Keeps.all keep only.children ctx
    simp only [Expr.substitute, Expr.substituteAll_eq_map, Expr.render, texts]
  negate e keeps only ctx := by
    have text := keeps (only.children e (List.mem_singleton_self e)) ctx
    simp only [Expr.substitute, Expr.render, text]
  isIn e list keeps listKeeps only ctx := by
    have children := only.children
    simp only [Expr.children, List.forall_mem_cons] at children
    obtain ⟨eOnly, listOnly⟩ := children
    have texts := Expr.Keeps.all listKeeps listOnly ctx
    simp only [Expr.substitute, Expr.substituteAll_eq_map, Expr.render, keeps eOnly ctx, texts]
  cast e type keeps only ctx := by
    have text := keeps (only.children e (List.mem_singleton_self e)) ctx
    simp only [Expr.substitute, Expr.render, text, Context.rename_dialect]
  random _ _ := rfl
  currentTimestamp _ _ := rfl
  param name only ctx := linked.param name ctx only.param
  subquery r keeps only ctx := by
    have text := Relation.query_substitute (keeps only.subquery) (ctx.placed false false)
    simp only [Expr.substitute, Expr.render, Context.rename_placed, text]
  table _ _ _ := rfl
  tableAlias id source name keeps only ctx := by
    have within := only.sources source (List.mem_singleton_self source)
    have text := keeps within (ctx.placed false true)
    simp only [Relation.substitute, Relation.render, Context.rename_placed, Context.rename_quote,
      text]
  join id sources kind on columns := Relation.join_keeps
  grouping id table keys values having := Relation.grouping_keeps
  setOperation id operator left right leftKeeps rightKeeps only ctx := by
    have sources := only.sources
    simp only [Relation.sources, List.forall_mem_cons] at sources
    obtain ⟨leftOnly, rightOnly, _⟩ := sources
    have leftText := Relation.query_substitute (leftKeeps leftOnly) (ctx.placed false ctx.inJoin)
    have rightText := Relation.query_substitute (rightKeeps rightOnly) (ctx.placed false ctx.inJoin)
    simp only [Relation.substitute, Relation.render, Context.rename_placed, Context.rename_inJoin,
      Context.rename_enclose, leftText, rightText]
  select s := Relation.select_keeps
  cte id source name params keeps only ctx := by
    have body := Relation.query_substitute
      (keeps (only.sources source (List.mem_singleton_self source))) ctx.defining
    simp only [Relation.substitute, Relation.render_cte, Context.rename_defining, body]
  tableParam p only ctx := linked.tableParam p.name ctx only.param

theorem Statement.render_substitute (linked : σ.Keeps allowed after links) {s : Statement}
    (only : ∀ r ∈ s.sources, r.MentionsOnly allowed) (ctx : Context) :
    (s.substitute σ).render after (ctx.rename σ.relation) = s.render links ctx := by
  have keep := fun r listed => linked.induction.relation r (only r listed)
  cases s with
  | create s =>
      obtain ⟨table, source, ifNotExists, primaryKeys⟩ := s
      cases source with
      | none => rfl
      | some source =>
          have text := keep source (List.mem_singleton_self source) ctx
          simp only [Statement.substitute, Option.map_some, Statement.render, CreateTable.render,
            text]
          rfl
  | drop s => rfl
  | truncate t => rfl
  | insert s =>
      obtain ⟨table, source, columns⟩ := s
      cases source with
      | rows rows => rfl
      | query r =>
          have text := keep r (List.mem_singleton_self r) ctx
          simp only [Statement.substitute, Statement.render, Insert.render, text]
          rfl
  | commit => rfl
  | explain query =>
      have text := Relation.query_substitute (keep query (List.mem_singleton_self query)) ctx
      simp only [Statement.substitute, Statement.render, text, Context.rename_dialect]

theorem Statement.mentionsOnly_sources {s : Statement}
    (only : (Node.statement s).MentionsOnly allowed) : ∀ r ∈ s.sources, r.MentionsOnly allowed :=
  fun r listed m mentioned => only m ⟨r, listed, mentioned⟩

theorem Node.render_substitute (linked : σ.Keeps allowed after links) {node : Node}
    (only : node.MentionsOnly allowed) (ctx : Context) :
    (node.substitute σ).render after (ctx.rename σ.relation) = node.render links ctx := by
  cases node with
  | expr e => exact linked.induction.expr e only ctx
  | relation r => exact linked.induction.relation r only ctx
  | statement s =>
      exact Statement.render_substitute linked (Statement.mentionsOnly_sources only) ctx

/-! Queries that stand alone. -/

/-- SQL text alone is no query for a value, so it must not come in place of a parameter that
is. -/
theorem Node.renderRoot_substitute (linked : σ.Keeps allowed after links) {node : Node}
    (only : node.MentionsOnly allowed)
    (bare : ∀ name sql, node = .expr (.param name) → σ.param name ≠ .code sql) (ctx : Context) :
    (node.substitute σ).renderRoot after (ctx.rename σ.relation) = node.renderRoot links ctx := by
  cases node with
  | expr e =>
      by_cases isCode : ∃ sql, e = .code sql
      · obtain ⟨sql, rfl⟩ := isCode
        rfl
      · have notCode : ∀ sql, e ≠ .code sql := fun sql same => isCode ⟨sql, same⟩
        have notCodeAfter : ∀ sql, e.substitute σ ≠ .code sql := by
          intro sql
          cases e with
          | param name => exact bare name sql rfl
          | code other => exact absurd rfl (notCode other)
          | _ => simp [Expr.substitute]
        have text := linked.induction.expr e only (ctx.placed true ctx.inJoin)
        simp only [Node.substitute, Node.renderRoot_expr _ _ notCode,
          Node.renderRoot_expr _ _ notCodeAfter, Context.rename_dialect, Context.rename_placed,
          Context.rename_inJoin, Context.rename_enclose, text]
  | relation r => exact Relation.query_substitute (linked.induction.relation r only) ctx
  | statement s =>
      exact Statement.render_substitute linked (Statement.mentionsOnly_sources only) ctx

end SqlQuery
