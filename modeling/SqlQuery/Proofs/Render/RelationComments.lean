import SqlQuery.Proofs.Render.ExprComments
import SqlQuery.Proofs.Render.JoinScope

/-!
The text of relations: it shows those of its parts with plain text between them. A query never
starts with a sign.
-/

namespace SqlQuery

open Text

namespace Survey

variable {survey : Survey} {nodes others : List Node} {text other : String} {texts : List String}

/-! Relations. -/

section Relations

variable {links : Links} {ctx : Context}

theorem neatAll_quotes {names : List String}
    (quotable : ∀ name ∈ names, survey.settings.dialect.Quotable name)
    (admits : survey.Admits ctx) : survey.NeatAll [] (names.map ctx.quote) := by
  apply NeatAll.of_forall
  intro text listed
  obtain ⟨name, present, rfl⟩ := List.mem_map.mp listed
  rw [Context.quote, admits.dialect]
  exact neat_quote (quotable name present)

theorem tableText_neat {t : Table} (plain : t.Plain survey.settings.dialect)
    (admits : survey.Admits ctx) : survey.Neat [] (tableText ctx t) :=
  (neatAll_quotes plain admits).intercalate (joins_of_fixed (.ofList (by decide)))

theorem head?_tableText_ne_dash (t : Table) (admits : survey.Admits ctx) :
    (tableText ctx t).toList.head? ≠ some '-' := by
  rw [tableText]
  cases t.path.segments with
  | nil => simp
  | cons name rest =>
      rw [String.toList_intercalate, List.map_cons, List.map_cons,
        List.intercalate_cons_eq_append_flatMap, Context.quote, admits.dialect,
        survey.quiet.names.toList_quote]
      exact fun same => survey.quiet.mark.2 (Option.some.inj same)

theorem relationGives_table (t : Table) : survey.RelationGives links (.table t) := by
  intro ctx sane admits
  rw [Relation.render]
  exact .pure (.of_parts rfl (fun signed => by cases signed) (tableText_neat sane.here admits)
    (head?_tableText_ne_dash t admits))

theorem relationGives_aliased {id : RelationId} {source : Relation} {name : String}
    (gives : survey.RelationGives links source) :
    survey.RelationGives links (.aliased ⟨id, source, name⟩) := by
  intro ctx sane admits
  rw [Relation.render]
  refine (gives _ (sane.part List.mem_cons_self) (admits.placed false true)).map
    fun text given => ?_
  rw [Context.quote, admits.dialect]
  have blank : Fixed " " := .ofList (by decide)
  refine ⟨neat_of_parts rfl (given.neat.between " " blank (neat_quote sane.here)), ?_⟩
  rw [head?_between " " blank, given.signed]
  constructor
  · exact .tableAlias (a := ⟨id, source, name⟩)
  · intro signed
    cases signed
    assumption

/-! Clauses. -/

theorem clause_neat (keyword : String) (fixed : Fixed keyword) {separator : String}
    (items : survey.Neat nodes (separator.intercalate texts)) :
    survey.Neat nodes (clause keyword separator texts) ∧
      Follows (clause keyword separator texts) := by
  cases texts with
  | nil =>
      rw [String.intercalate_nil] at items
      exact ⟨items, follows_empty⟩
  | cons first rest =>
      have whole := items.opened (" " ++ keyword ++ " ") fixed.spaced
      exact ⟨whole.neat, whole.start.follows⟩

theorem selectList_neat (all : survey.NeatAll nodes texts) :
    survey.Neat nodes (selectList texts) := by
  cases all with
  | nil => exact neat_of_plain (Plain.ofList (by decide))
  | cons here later => exact (NeatAll.cons here later).intercalate joins_comma

theorem keyPositions_neat (keys : List Expr) :
    survey.Neat [] (", ".intercalate (keyPositions keys)) := by
  refine (NeatAll.of_forall fun text listed => ?_).intercalate joins_comma
  obtain ⟨i, _, rfl⟩ := List.mem_map.mp listed
  exact neat_of_plain (plain_toString _)

/-- The text of a SELECT shows the nodes of all its clauses. -/
theorem gives_selectText {distinct : Bool} {limit : Option UInt64}
    {columns filters groupBy having orderBy : Rendering (List String)}
    {source : Rendering (Option String)} {cs ts fs gs hs os : List Node}
    (columnsGive : survey.Gives (survey.NeatAll cs) columns)
    (sourceGives : survey.Gives (fun table => survey.Neat ts ("".intercalate table.toList)) source)
    (filtersGive : survey.Gives (survey.NeatAll fs) filters)
    (groupByGives : survey.Gives (fun texts => survey.Neat gs (", ".intercalate texts)) groupBy)
    (havingGives : survey.Gives (survey.NeatAll hs) having)
    (orderByGives : survey.Gives (survey.NeatAll os) orderBy) :
    survey.Gives (survey.Opened (cs ++ ts ++ fs ++ gs ++ hs ++ os))
      (selectText survey.settings.dialect distinct limit columns source filters groupBy having
        orderBy) := by
  unfold selectText
  refine columnsGive.bind fun columns neatColumns => ?_
  refine sourceGives.bind fun source neatSource => ?_
  refine filtersGive.bind fun filters neatFilters => ?_
  refine groupByGives.bind fun groupBy neatGroupBy => ?_
  refine havingGives.bind fun having neatHaving => ?_
  refine orderByGives.map fun orderBy neatOrderBy => ?_
  have head : Plain ("SELECT " ++ if distinct then "DISTINCT " else "") :=
    (Plain.ofList (by decide)).append_optional (Plain.ofList (by decide))
  have stop : Plain (if limit.isSome then " " ++ survey.settings.dialect.offsetLimit none limit
      else "") := by
    split
    · exact (Plain.ofList (by decide)).append (survey.quiet.offsetLimit limit)
    · exact plain_empty
  have fromClause := clause_neat "FROM" (.ofList (by decide)) neatSource
  have whereClause := clause_neat "WHERE" (.ofList (by decide)) (neatFilters.intercalate joins_and)
  have groupClause := clause_neat "GROUP BY" (.ofList (by decide)) neatGroupBy
  have havingClause := clause_neat "HAVING" (.ofList (by decide)) (neatHaving.intercalate joins_and)
  have orderClause := clause_neat "ORDER BY" (.ofList (by decide))
    (neatOrderBy.intercalate joins_comma)
  have list := (selectList_neat neatColumns).opened _ ⟨head, by simp⟩
  exact (((((list.append fromClause.1 fromClause.2).append whereClause.1 whereClause.2).append
    groupClause.1 groupClause.2).append havingClause.1 havingClause.2).append orderClause.1
    orderClause.2).append_plain stop

theorem neat_placeholderTable :
    survey.Neat [] ("".intercalate survey.settings.dialect.placeholderTable.toList) := by
  cases standIn : survey.settings.dialect.placeholderTable with
  | none => exact neat_empty
  | some table =>
      rw [Option.toList_some, String.intercalate_singleton]
      exact neat_of_plain (survey.quiet.placeholderTable table standIn)

theorem gives_source {table : Option Relation}
    (gives : ∀ r, table = some r → survey.RelationGives links r)
    (sane : ∀ r ∈ table.toList, survey.Sane (.relation r)) (admits : survey.Admits ctx) :
    survey.Gives (fun source => survey.Neat (table.toList.map .relation)
        ("".intercalate source.toList)) (Relation.renderFrom links ctx table) := by
  cases table with
  | none =>
      refine .pure ?_
      rw [admits.dialect]
      exact neat_placeholderTable
  | some r =>
      refine (gives r rfl ctx (sane r List.mem_cons_self) admits).map fun text given => ?_
      change survey.Neat [.relation r] ("".intercalate [text])
      rw [String.intercalate_singleton]
      exact given.neat

theorem gives_selected {columns : Option (List Expr)}
    (gives : ∀ es, columns = some es → ∀ e ∈ es, survey.ExprGives links e)
    (sane : ∀ e ∈ columns.getD [], survey.Sane (.expr e)) (admits : survey.Admits ctx) :
    survey.Gives (survey.NeatAll ((columns.getD []).map .expr))
      (Expr.renderSelected links ctx columns) := by
  cases columns with
  | none => exact .pure .nil
  | some es => exact gives_exprs (gives es rfl) sane admits

/-- A query that is put into its place. -/
theorem nodeText_enclosed {r : Relation} {sql : String} (ctx : Context)
    (query : r.isQuery = true) (opened : survey.Opened nodes sql)
    (parts : ∀ part ∈ r.parts survey.settings false, part ∈ nodes) :
    survey.Gives (survey.NodeText (.relation r)) (ctx.enclose sql) := by
  refine (gives_enclose ctx opened.neat opened.start.head?_ne_dash).imp fun text given => ?_
  exact .of_parts rfl (not_signed_of_isQuery query) (given.1.of_subset parts) given.2

theorem relationGives_select {s : Select}
    (parts : s.Parts (survey.ExprGives links) (survey.RelationGives links)) :
    survey.RelationGives links (.select s) := by
  intro ctx sane admits
  have inner := admits.placed true ctx.inJoin
  have exprs : ∀ e ∈ s.exprs, survey.Sane (.expr e) :=
    fun e listed => sane.part (List.mem_append_left _ (List.mem_map_of_mem listed))
  have table : ∀ r ∈ s.table.toList, survey.Sane (.relation r) :=
    fun r listed => sane.part (List.mem_append_right _ (List.mem_map_of_mem listed))
  simp only [SelectOf.exprs, List.forall_mem_append] at exprs
  obtain ⟨⟨⟨⟨columns, filters⟩, groupBy⟩, having⟩, orderBy⟩ := exprs
  rw [Relation.render_select, admits.dialect]
  refine (gives_selectText (gives_selected parts.columns columns inner)
    (gives_source parts.table table inner) (gives_exprs parts.filters filters inner)
    ((gives_exprs parts.groupBy groupBy inner).imp fun _ all => all.intercalate joins_comma)
    (gives_exprs parts.having having inner) (gives_exprs parts.orderBy orderBy inner)).bind
      fun sql opened => nodeText_enclosed ctx rfl opened ?_
  simp only [Relation.parts, SelectOf.exprs, List.map_append, List.mem_append]
  tauto

theorem relationGives_setOperation {id : RelationId} {operator : SetOperator}
    {left right : Relation} (givesLeft : survey.RelationGives links left)
    (givesRight : survey.RelationGives links right) :
    survey.RelationGives links (.setOperation ⟨id, operator, left, right⟩) := by
  intro ctx sane admits
  have inner := admits.placed false ctx.inJoin
  have fixed : Fixed (" " ++ operator.keyword ++ " ") := operator.fixed_keyword.spaced
  rw [Relation.render]
  refine (gives_query givesLeft (sane.part List.mem_cons_self) inner).bind fun text given => ?_
  refine (gives_query givesRight (sane.part (List.mem_cons_of_mem _ List.mem_cons_self)) inner).bind
    fun other later => ?_
  have whole := given.1.between (" " ++ operator.keyword ++ " ") fixed later.1
  have start : (text ++ (" " ++ operator.keyword ++ " ") ++ other).toList.head? ≠ some '-' := by
    rw [ne_eq, head?_between _ fixed]
    exact given.2
  have same : text ++ " " ++ operator.keyword ++ " " ++ other =
      text ++ (" " ++ operator.keyword ++ " ") ++ other := by
    simp only [String.append_assoc]
  rw [same]
  refine (gives_enclose ctx whole start).imp fun sql enclosed => ?_
  exact .of_parts rfl (not_signed_of_isQuery rfl) enclosed.1 enclosed.2

/-- A grouping that takes a SELECT into itself. -/
theorem relationGives_absorbing {id : RelationId} {s : Select} {keys values having : List Expr}
    (absorbed : GroupingOf.absorbed? ⟨id, .select s, keys, values, having⟩ = some s)
    (parts : s.Parts (survey.ExprGives links) (survey.RelationGives links))
    (givesKeys : ∀ e ∈ keys, survey.ExprGives links e)
    (givesValues : ∀ e ∈ values, survey.ExprGives links e)
    (givesHaving : ∀ e ∈ having, survey.ExprGives links e) :
    survey.RelationGives links (.grouping ⟨id, .select s, keys, values, having⟩) := by
  intro ctx sane admits
  have plain := (GroupingOf.eq_of_absorbed absorbed).2
  have inner := admits.placed true ctx.inJoin
  have own (defined : Bool) :
      (Relation.grouping ⟨id, .select s, keys, values, having⟩).parts survey.settings defined =
        (keys ++ values).map .expr ++ s.table.toList.map .relation ++
          (s.filters ++ having ++ s.orderBy).map .expr := by
    simp only [Relation.parts, GroupingOf.parts, absorbed, GroupingOf.outputs]
  have sound : ∀ part ∈ (keys ++ values).map Node.expr ++ s.table.toList.map .relation ++
      (s.filters ++ having ++ s.orderBy).map .expr, survey.Sane part :=
    fun part listed => sane.part (by rwa [Node.parts, own])
  simp only [List.map_append, List.forall_mem_append, List.forall_mem_map] at sound
  obtain ⟨⟨⟨saneKeys, saneValues⟩, table⟩, ⟨filters, saneHaving⟩, orderBy⟩ := sound
  have outputs := (gives_exprs givesKeys saneKeys inner).bind fun keyTexts allKeys =>
    (gives_exprs givesValues saneValues inner).map fun valueTexts => allKeys.append
  rw [Relation.render_grouping_plain _ _ _ _ _ _ _ plain, admits.dialect]
  refine (gives_selectText outputs (gives_source parts.table table inner)
    (gives_exprs parts.filters filters inner) (.pure (keyPositions_neat keys))
    (gives_exprs givesHaving saneHaving inner) (gives_exprs parts.orderBy orderBy inner)).bind
      fun sql opened => nodeText_enclosed ctx rfl opened ?_
  rw [own]
  simp only [List.map_append, List.mem_append]
  tauto

/-- A grouping that stands around the relation it groups. -/
theorem relationGives_nesting {id : RelationId} {table : Relation} {keys values having : List Expr}
    (nested : GroupingOf.absorbed? ⟨id, table, keys, values, having⟩ = none)
    (gives : survey.RelationGives links table)
    (givesKeys : ∀ e ∈ keys, survey.ExprGives links e)
    (givesValues : ∀ e ∈ values, survey.ExprGives links e)
    (givesHaving : ∀ e ∈ having, survey.ExprGives links e) :
    survey.RelationGives links (.grouping ⟨id, table, keys, values, having⟩) := by
  intro ctx sane admits
  have inner := admits.placed true false
  have own (defined : Bool) :
      (Relation.grouping ⟨id, table, keys, values, having⟩).parts survey.settings defined =
        (keys ++ values).map .expr ++ [.relation table] ++ having.map .expr := by
    simp only [Relation.parts, GroupingOf.parts, nested, GroupingOf.outputs]
  have sound : ∀ part ∈ (keys ++ values).map Node.expr ++ [.relation table] ++ having.map .expr,
      survey.Sane part :=
    fun part listed => sane.part (by rwa [Node.parts, own])
  simp only [List.map_append, List.forall_mem_append, List.forall_mem_map,
    List.forall_mem_singleton] at sound
  obtain ⟨⟨⟨saneKeys, saneValues⟩, saneTable⟩, saneHaving⟩ := sound
  rw [Relation.render_grouping_nested _ _ _ _ _ _ _ (GroupingOf.not_plain_of_absorbed nested)]
  refine (gives_exprs givesKeys saneKeys admits).bind fun keyTexts allKeys => ?_
  refine (gives_exprs givesValues saneValues admits).bind fun valueTexts allValues => ?_
  refine (gives _ saneTable inner).bind fun source given => ?_
  refine (gives_exprs givesHaving saneHaving admits).bind fun texts all => ?_
  have outputs := (allKeys.append allValues).intercalate joins_comma
  have positions : survey.Neat [] (", ".intercalate (keyPositions keys)) := keyPositions_neat keys
  have groupClause := clause_neat "GROUP BY" (.ofList (by decide)) positions
  have havingClause := clause_neat "HAVING" (.ofList (by decide)) (all.intercalate joins_and)
  have selected := (outputs.opened "SELECT " (.ofList (by decide))).between " FROM "
    (.ofList (by decide)) given.neat
  have whole := (selected.append groupClause.1 groupClause.2).append havingClause.1 havingClause.2
  refine nodeText_enclosed ctx rfl whole ?_
  rw [own]
  simp only [List.map_append, List.mem_append]
  tauto

theorem relationGives_grouping {id : RelationId} {table : Relation} {keys values having : List Expr}
    (gives : survey.RelationGives links table)
    (parts : ∀ s, table = .select s →
      s.Parts (survey.ExprGives links) (survey.RelationGives links))
    (givesKeys : ∀ e ∈ keys, survey.ExprGives links e)
    (givesValues : ∀ e ∈ values, survey.ExprGives links e)
    (givesHaving : ∀ e ∈ having, survey.ExprGives links e) :
    survey.RelationGives links (.grouping ⟨id, table, keys, values, having⟩) := by
  cases absorbed : GroupingOf.absorbed? ⟨id, table, keys, values, having⟩ with
  | some s =>
      cases (GroupingOf.eq_of_absorbed absorbed).1
      exact relationGives_absorbing absorbed (parts s rfl) givesKeys givesValues givesHaving
  | none => exact relationGives_nesting absorbed gives givesKeys givesValues givesHaving

theorem definitionHead_plain {params : Option (List String)} {name : String} (plain : Plain name)
    (plainParams : ∀ param ∈ params.getD [], Plain param) : Plain (definitionHead params name) := by
  have opening : Plain "(" := .ofList (by decide)
  have close : Plain ")" := .ofList (by decide)
  have comma : Plain ", " := .ofList (by decide)
  unfold definitionHead
  split
  · exact ((plain.append opening).append (comma.intercalate plainParams)).append close
  · exact plain

theorem gives_definitionName {name : Option String} (plain : ∀ own ∈ name, Plain own) :
    survey.Gives Plain (definitionName name) := by
  cases name with
  | none => exact .newName
  | some own => exact .pure (plain own rfl)

theorem relationGives_cte {id : RelationId} {source : Relation} {name : Option String}
    {params : Option (List String)} (gives : survey.RelationGives links source) :
    survey.RelationGives links (.cte ⟨id, source, name, params⟩) := by
  intro ctx sane admits
  have inner : survey.Admits ctx.defining := ⟨admits.dialect, List.forall_mem_nil _⟩
  obtain ⟨plainName, plainParams⟩ := sane.here
  rw [Relation.render_cte]
  refine (gives_query gives (sane.part List.mem_cons_self) inner).bind fun body given => ?_
  refine (gives_definitionName plainName).bind fun own plain => ?_
  have neat : survey.Neat [] body := given.1.of_subset (List.forall_mem_nil _)
  refine (gives_define (definitionHead_plain plain plainParams) neat).bind fun _ _ => ?_
  refine .pure (.of_parts rfl ?_ (neat_of_plain plain) plain.head?_ne_dash)
  intro signed
  cases signed

/-! Joins. -/

theorem quotable_of_plain {name : String} (plain : Plain name) :
    survey.settings.dialect.Quotable name := by
  intro listed
  have plainMark := plain _ listed
  rw [survey.quiet.mark.1] at plainMark
  cases plainMark

/-- The names of the sources can be quoted, their own and the generated ones. -/
theorem gives_sourceAlias {r : Relation} (plain : r.Plain survey.settings.dialect) :
    survey.Gives (fun a => survey.settings.dialect.Quotable a.name) (sourceAlias r) := by
  cases r with
  | aliased own => exact .pure plain
  | _ => exact Gives.newName.map fun name => quotable_of_plain

theorem gives_joinAliases {sources : List Relation}
    (plain : ∀ r ∈ sources, r.Plain survey.settings.dialect) :
    survey.Gives (fun aliases => aliases.length = sources.length ∧
        ∀ a ∈ aliases, survey.settings.dialect.Quotable a.name) (joinAliases sources) := by
  induction sources with
  | nil => exact .pure ⟨rfl, List.forall_mem_nil _⟩
  | cons r rest ih =>
      obtain ⟨first, later⟩ := List.forall_mem_cons.mp plain
      rw [joinAliases_cons]
      refine (gives_sourceAlias first).bind fun a quotable => ?_
      refine (ih later).map fun aliases given => ?_
      refine ⟨?_, List.forall_mem_cons.mpr ⟨quotable, given.2⟩⟩
      rw [List.length_cons, given.1, List.length_cons]

theorem gives_relations {rs : List Relation} (gives : ∀ r ∈ rs, survey.RelationGives links r)
    (sane : ∀ r ∈ rs, survey.Sane (.relation r)) (admits : survey.Admits ctx) :
    survey.Gives (List.Forall₂ (fun r text => survey.Neat [.relation r] text) rs)
      (Relation.renderAll links ctx rs) := by
  induction rs with
  | nil => exact .pure .nil
  | cons r rest ih =>
      obtain ⟨first, later⟩ := List.forall_mem_cons.mp gives
      obtain ⟨saneFirst, saneLater⟩ := List.forall_mem_cons.mp sane
      refine (first ctx saneFirst admits).bind fun text here => ?_
      exact (ih later saneLater).map fun texts all => .cons here.neat all

theorem aliasedSource_neat {r : Relation} {a : ScopedAlias} (admits : survey.Admits ctx)
    (quotable : survey.settings.dialect.Quotable a.name) (neat : survey.Neat [.relation r] text) :
    survey.Neat [.relation r] (aliasedSource ctx (r, a) text) := by
  have named := neat.between " " (.ofList (by decide)) (neat_quote quotable)
  rw [List.append_nil, ← admits.dialect] at named
  cases r with
  | aliased own => exact neat
  | _ => exact named

theorem aliasedSources_neat {sources : List Relation} {aliases : List ScopedAlias}
    (admits : survey.Admits ctx)
    (all : List.Forall₂ (fun r text => survey.Neat [.relation r] text) sources texts)
    (length : aliases.length = sources.length)
    (quotable : ∀ a ∈ aliases, survey.settings.dialect.Quotable a.name) :
    survey.NeatAll (sources.map .relation)
      ((sources.zip aliases).zipWith (aliasedSource ctx) texts) := by
  induction all generalizing aliases with
  | nil => exact .nil
  | cons here _ ih =>
      obtain ⟨a, rest, rfl⟩ := List.exists_cons_of_length_eq_add_one length
      obtain ⟨first, later⟩ := List.forall_mem_cons.mp quotable
      exact .cons (aliasedSource_neat admits first here) (ih (Nat.succ.inj length) later)

theorem gives_joined {columns : Option (List Expr)}
    (gives : ∀ es, columns = some es → ∀ e ∈ es, survey.ExprGives links e)
    (sane : ∀ e ∈ columns.getD [], survey.Sane (.expr e)) (admits : survey.Admits ctx) :
    survey.Gives (survey.Neat ((columns.getD []).map .expr))
      (Expr.renderJoined links ctx columns) := by
  cases columns with
  | none => exact .pure (neat_of_plain (Plain.ofList (by decide)))
  | some es =>
      exact (gives_exprs (gives es rfl) sane admits).map
        fun texts all => all.intercalate joins_comma

theorem relationGives_join {id : RelationId} {sources : List Relation} {kind : JoinKind}
    {on : List Expr} {columns : Option (List Expr)}
    (givesSources : ∀ r ∈ sources, survey.RelationGives links r)
    (givesOn : ∀ e ∈ on, survey.ExprGives links e)
    (givesColumns : ∀ es, columns = some es → ∀ e ∈ es, survey.ExprGives links e) :
    survey.RelationGives links (.join ⟨id, sources, kind, on, columns⟩) := by
  intro ctx sane admits
  have saneSources : ∀ r ∈ sources, survey.Sane (.relation r) :=
    fun r listed => sane.part (List.mem_append_left _ (List.mem_map_of_mem listed))
  have exprs : ∀ e ∈ on ++ columns.getD [], survey.Sane (.expr e) :=
    fun e listed => sane.part (List.mem_append_right _ (List.mem_map_of_mem listed))
  obtain ⟨saneOn, saneColumns⟩ := List.forall_mem_append.mp exprs
  rw [Relation.render_join]
  refine (gives_joinAliases fun r listed => (saneSources r listed).here).bind
    fun aliases named => ?_
  have inner : survey.Admits (ctx.joined aliases) :=
    ⟨admits.dialect, List.forall_mem_append.mpr ⟨admits.aliases, named.2⟩⟩
  refine (gives_relations givesSources saneSources inner).bind fun texts all => ?_
  refine (gives_exprs givesOn saneOn inner).bind fun onTexts allOn => ?_
  refine (gives_joined givesColumns saneColumns inner).bind fun columnText neat => ?_
  have items := aliasedSources_neat admits all named.1 named.2
  have onClause := clause_neat "ON" (.ofList (by decide)) (allOn.intercalate joins_and)
  have selected := (neat.opened "SELECT " (.ofList (by decide))).between " FROM "
    (.ofList (by decide)) (items.intercalate (joins_of_fixed kind.fixed_separator))
  have whole := selected.append onClause.1 onClause.2
  refine nodeText_enclosed ctx rfl whole ?_
  simp only [Relation.parts, List.map_append, List.mem_append]
  tauto

end Relations

theorem LinksGive.induction {links : Links} (follow : survey.LinksGive links) :
    QueryInduction (survey.ExprGives links) (survey.RelationGives links) where
  value := exprGives_value
  code _ := fun _ sane => absurd sane.here id
  column := exprGives_column
  placeholder := exprGives_placeholder follow
  aliased _ _ := exprGives_aliased
  concat _ _ := exprGives_concat
  countAll _ := exprGives_count (by simp)
  count e _ gives := exprGives_count (by simpa using gives)
  call _ _ := exprGives_call
  case _ _ := exprGives_case
  isDistinctFrom _ _ := exprGives_isDistinctFrom
  binary _ _ := exprGives_binary
  negate _ := exprGives_negate
  isIn _ _ := exprGives_isIn
  cast _ _ := exprGives_cast
  random := exprGives_random
  currentTimestamp := exprGives_currentTimestamp
  param := exprGives_param follow
  subquery _ := exprGives_subquery
  table := relationGives_table
  tableAlias _ _ _ := relationGives_aliased
  join _ _ _ _ _ := relationGives_join
  grouping _ _ _ _ _ := relationGives_grouping
  setOperation _ _ _ _ := relationGives_setOperation
  select _ := relationGives_select
  cte _ _ _ _ := relationGives_cte
  tableParam := relationGives_param follow

end Survey

end SqlQuery
