import SqlQuery.Proofs.Query.Owners
import SqlQuery.Proofs.Render.Trace

/-!
Where the events of a trace come from: the owners of its columns are owners of the columns of the
node, and the node mentions what is followed.
-/

namespace SqlQuery

/-! Traces as lists over the parts of a node. -/

theorem Expr.traceOfAll_eq_flatMap (es : List Expr) :
    Expr.traceOfAll es = es.flatMap Expr.trace := by
  induction es with
  | nil => rfl
  | cons e rest ih => rw [Expr.traceOfAll, ih, List.flatMap_cons]

theorem Expr.traceOfOptional_eq_flatMap (es : Option (List Expr)) :
    Expr.traceOfOptional es = (es.getD []).flatMap Expr.trace := by
  cases es with
  | none => rfl
  | some es => exact Expr.traceOfAll_eq_flatMap es

theorem Expr.traceOfElse_eq_flatMap (e : Option Expr) :
    Expr.traceOfElse e = e.toList.flatMap Expr.trace := by
  cases e with
  | none => rfl
  | some e => simp [Expr.traceOfElse]

theorem Expr.traceOfBranches_eq_flatMap (branches : List (BranchOf Expr)) :
    Expr.traceOfBranches branches =
      (branches.flatMap fun b => [b.condition, b.result]).flatMap Expr.trace := by
  induction branches with
  | nil => rfl
  | cons branch rest ih =>
      simp [Expr.traceOfBranches, ih]

theorem Relation.traceOfAll_eq_flatMap (rs : List Relation) :
    Relation.traceOfAll rs = rs.flatMap Relation.trace := by
  induction rs with
  | nil => rfl
  | cons r rest ih => rw [Relation.traceOfAll, ih, List.flatMap_cons]

theorem Relation.traceOfOptional_eq_flatMap (r : Option Relation) :
    Relation.traceOfOptional r = r.toList.flatMap Relation.trace := by
  cases r with
  | none => rfl
  | some r => simp [Relation.traceOfOptional]

/-! The parts that the events belong to. -/

section

variable (owned : RelationId → Prop) (mentioned : Mention → Prop)

def Event.Belongs : Event → Prop
  | .column owner _ => owned owner
  | .link m _ => mentioned m
  | .stop _ _ => True

def Expr.Sourced (e : Expr) : Prop :=
  (∀ owner ∈ e.owners, owned owner) → e.MentionsOnly mentioned →
    ∀ step ∈ e.trace, step.event.Belongs owned mentioned

def Relation.Sourced (r : Relation) : Prop :=
  (∀ owner ∈ r.owners, owned owner) → r.MentionsOnly mentioned →
    ∀ step ∈ r.trace, step.event.Belongs owned mentioned

end

variable {owned : RelationId → Prop} {mentioned : Mention → Prop}

theorem Expr.Sourced.all {es : List Expr} (sourced : ∀ e ∈ es, e.Sourced owned mentioned)
    (owners : ∀ owner ∈ es.flatMap Expr.owners, owned owner)
    (only : ∀ e ∈ es, e.MentionsOnly mentioned) :
    ∀ step ∈ es.flatMap Expr.trace, step.event.Belongs owned mentioned := by
  rw [List.forall_mem_flatMap] at owners ⊢
  exact fun e listed => sourced e listed (owners e listed) (only e listed)

theorem Relation.Sourced.all {rs : List Relation} (sourced : ∀ r ∈ rs, r.Sourced owned mentioned)
    (owners : ∀ owner ∈ rs.flatMap Relation.owners, owned owner)
    (only : ∀ r ∈ rs, r.MentionsOnly mentioned) :
    ∀ step ∈ rs.flatMap Relation.trace, step.event.Belongs owned mentioned := by
  rw [List.forall_mem_flatMap] at owners ⊢
  exact fun r listed => sourced r listed (owners r listed) (only r listed)

theorem Expr.Sourced.selected {columns : Option (List Expr)}
    (sourced : ∀ es, columns = some es → ∀ e ∈ es, e.Sourced owned mentioned) :
    ∀ e ∈ columns.getD [], e.Sourced owned mentioned := by
  cases columns with
  | none => exact nofun
  | some es => exact sourced es rfl

theorem Relation.Sourced.from {source : Option Relation}
    (sourced : ∀ r, source = some r → r.Sourced owned mentioned) :
    ∀ r ∈ source.toList, r.Sourced owned mentioned :=
  fun r listed => sourced r (Option.mem_toList.mp listed)

theorem Relation.select_sourced {s : Select}
    (parts : s.Parts (Expr.Sourced owned mentioned) (Relation.Sourced owned mentioned)) :
    (Relation.select s).Sourced owned mentioned := by
  intro owners only
  have exprs := only.exprs
  simp only [Relation.exprs, SelectOf.exprs, List.forall_mem_append] at exprs
  obtain ⟨⟨⟨⟨inColumns, inFilters⟩, inGroupBy⟩, inHaving⟩, inOrderBy⟩ := exprs
  simp only [Relation.owners, Relation.ownersOfOptional_eq_flatMap,
    Expr.ownersOfOptional_eq_flatMap, Expr.ownersOfAll_eq_flatMap,
    List.forall_mem_append] at owners
  obtain ⟨⟨⟨⟨⟨ofTable, ofColumns⟩, ofFilters⟩, ofOrderBy⟩, ofGroupBy⟩, ofHaving⟩ := owners
  rw [Relation.trace_select]
  simp only [Relation.traceOfOptional_eq_flatMap, Expr.traceOfOptional_eq_flatMap,
    Expr.traceOfAll_eq_flatMap, List.forall_mem_append]
  exact ⟨Expr.Sourced.all (Expr.Sourced.selected parts.columns) ofColumns inColumns,
    Relation.Sourced.all (Relation.Sourced.from parts.table) ofTable only.sources,
    Expr.Sourced.all parts.filters ofFilters inFilters,
    Expr.Sourced.all parts.groupBy ofGroupBy inGroupBy,
    Expr.Sourced.all parts.having ofHaving inHaving,
    Expr.Sourced.all parts.orderBy ofOrderBy inOrderBy⟩

/-- The parts of a grouped SELECT that are written with the grouping are written without it too. -/
theorem Relation.mem_trace_grouping {id : RelationId} {table : Relation}
    {keys values having : List Expr} {step : Step}
    (listed : step ∈ (Relation.grouping ⟨id, table, keys, values, having⟩).trace) :
    step ∈ (keys ++ values ++ having).flatMap Expr.trace ∨ step ∈ table.trace := by
  rcases table.plain_or_nested with ⟨s, rfl, plain⟩ | nested
  · rw [Relation.trace_grouping_plain id s keys values having plain] at listed
    rw [Relation.trace_select]
    simp only [Expr.traceOfAll_eq_flatMap, List.flatMap_append, List.mem_append] at listed ⊢
    tauto
  · rw [Relation.trace_grouping_nested id table keys values having nested] at listed
    simp only [Expr.traceOfAll_eq_flatMap, List.flatMap_append, List.mem_append] at listed ⊢
    tauto

variable (owned mentioned) in
theorem Expr.sourced_induction :
    QueryInduction (Expr.Sourced owned mentioned) (Relation.Sourced owned mentioned) where
  value v _ _ := List.forall_mem_nil _
  code sql _ _ := List.forall_mem_nil _
  column c owners _ := by
    simpa [Expr.trace, Event.Belongs, Expr.owners] using owners
  placeholder id name _ only := by
    simpa [Expr.trace, Event.Belongs] using only.placeholder
  aliased e name sourced owners only := sourced owners (only.children e (List.mem_singleton_self e))
  concat items separator sourced owners only := by
    simp only [Expr.owners, Expr.ownersOfAll_eq_flatMap] at owners
    rw [Expr.trace]
    split
    · simp [Event.Belongs]
    · rw [Expr.traceOfAll_eq_flatMap]
      exact Expr.Sourced.all sourced owners only.children
  countAll distinct _ _ := List.forall_mem_nil _
  count e distinct sourced owners only :=
    sourced owners (only.children e (List.mem_singleton_self e))
  call function arguments sourced owners only := by
    simp only [Expr.owners, Expr.ownersOfAll_eq_flatMap] at owners
    rw [Expr.trace, Expr.traceOfAll_eq_flatMap]
    exact Expr.Sourced.all sourced owners only.children
  case branches otherwise sourced otherwiseSourced owners only := by
    have owners : ∀ owner ∈ (branches.flatMap fun b => [b.condition, b.result]).flatMap
        Expr.owners ++ otherwise.toList.flatMap Expr.owners, owned owner := by
      cases otherwise with
      | none =>
          simpa only [Expr.owners, Expr.ownersOfBranches_eq_flatMap, List.flatMap_assoc,
            List.flatMap_cons, List.flatMap_nil, List.append_nil, Option.toList_none] using owners
      | some e =>
          simpa only [Expr.owners, Expr.ownersOfBranches_eq_flatMap, List.flatMap_assoc,
            List.flatMap_cons, List.flatMap_nil, List.append_nil, Option.toList_some] using owners
    have branchesSourced : ∀ e ∈ branches.flatMap (fun b => [b.condition, b.result]),
        e.Sourced owned mentioned := by
      rw [List.forall_mem_flatMap]
      intro b listed
      obtain ⟨condition, result⟩ := sourced b listed
      exact List.forall_mem_cons.mpr ⟨condition, List.forall_mem_singleton.mpr result⟩
    obtain ⟨ofBranches, ofElse⟩ := List.forall_mem_append.mp owners
    obtain ⟨inBranches, inElse⟩ := List.forall_mem_append.mp only.children
    rw [Expr.trace]
    split
    · simp [Event.Belongs]
    · rw [Expr.traceOfBranches_eq_flatMap, Expr.traceOfElse_eq_flatMap, List.forall_mem_append]
      exact ⟨Expr.Sourced.all branchesSourced ofBranches inBranches,
        Expr.Sourced.all (fun e listed => otherwiseSourced e (Option.mem_toList.mp listed)) ofElse
          inElse⟩
  isDistinctFrom left right leftSourced rightSourced owners only := by
    have children := only.children
    simp only [Expr.children, List.forall_mem_cons] at children
    simp only [Expr.owners, List.forall_mem_append] at owners
    rw [Expr.trace, List.forall_mem_append]
    exact ⟨leftSourced owners.1 children.1, rightSourced owners.2 children.2.1⟩
  binary operator arguments sourced owners only := by
    simp only [Expr.owners, Expr.ownersOfAll_eq_flatMap] at owners
    rw [Expr.trace, Expr.traceOfAll_eq_flatMap]
    exact Expr.Sourced.all sourced owners only.children
  negate e sourced owners only := sourced owners (only.children e (List.mem_singleton_self e))
  isIn e list sourced listSourced owners only := by
    have children := only.children
    simp only [Expr.children, List.forall_mem_cons] at children
    simp only [Expr.owners, Expr.ownersOfAll_eq_flatMap, List.forall_mem_append] at owners
    rw [Expr.trace, Expr.traceOfAll_eq_flatMap, List.forall_mem_append]
    exact ⟨sourced owners.1 children.1, Expr.Sourced.all listSourced owners.2 children.2⟩
  cast e type sourced owners only := sourced owners (only.children e (List.mem_singleton_self e))
  random _ _ := List.forall_mem_nil _
  currentTimestamp _ _ := List.forall_mem_nil _
  param name _ only := by
    simpa [Expr.trace, Event.Belongs] using only.param
  subquery r sourced owners only := sourced owners only.subquery
  table t _ _ := List.forall_mem_nil _
  tableAlias id source name sourced owners only :=
    sourced owners (only.sources source (List.mem_singleton_self source))
  join id sources kind on columns sourcesSourced onSourced columnsSourced owners only := by
    have exprs := only.exprs
    simp only [Relation.exprs, List.forall_mem_append] at exprs
    simp only [Relation.owners, Relation.ownersOfAll_eq_flatMap, Expr.ownersOfAll_eq_flatMap,
      Expr.ownersOfOptional_eq_flatMap, List.forall_mem_append] at owners
    obtain ⟨⟨ofSources, ofOn⟩, ofColumns⟩ := owners
    rw [Relation.trace, List.forall_mem_map]
    simp only [Step.event_within, Relation.traceOfAll_eq_flatMap, Expr.traceOfAll_eq_flatMap,
      Expr.traceOfOptional_eq_flatMap, List.forall_mem_append]
    exact ⟨Relation.Sourced.all sourcesSourced ofSources only.sources,
      Expr.Sourced.all onSourced ofOn exprs.1,
      Expr.Sourced.all (Expr.Sourced.selected columnsSourced) ofColumns exprs.2⟩
  grouping id table keys values having tableSourced _ keysSourced valuesSourced havingSourced
      owners only := by
    simp only [Relation.owners, Expr.ownersOfAll_eq_flatMap, List.append_assoc,
      ← List.flatMap_append] at owners
    obtain ⟨ofTable, ofExprs⟩ := List.forall_mem_append.mp owners
    have sourced : ∀ e ∈ keys ++ values ++ having, e.Sourced owned mentioned := by
      simp only [List.forall_mem_append]
      exact ⟨⟨keysSourced, valuesSourced⟩, havingSourced⟩
    intro step listed
    rcases Relation.mem_trace_grouping listed with inExprs | inTable
    · exact Expr.Sourced.all sourced (by rwa [List.append_assoc]) only.exprs step inExprs
    · exact tableSourced ofTable (only.sources table (List.mem_singleton_self table)) step inTable
  setOperation id operator left right leftSourced rightSourced owners only := by
    have sources := only.sources
    simp only [Relation.sources, List.forall_mem_cons] at sources
    simp only [Relation.owners, List.forall_mem_append] at owners
    rw [Relation.trace, List.forall_mem_append]
    exact ⟨leftSourced owners.1 sources.1, rightSourced owners.2 sources.2.1⟩
  select s parts := Relation.select_sourced parts
  cte id source name params sourced owners only := by
    rw [Relation.trace, List.forall_mem_map]
    exact sourced owners (only.sources source (List.mem_singleton_self source))
  tableParam p _ only := by
    simpa [Relation.trace, Event.Belongs] using only.param

theorem Node.belongs_of_mem_trace {node : Node} {step : Step} (listed : step ∈ node.trace) :
    step.event.Belongs (· ∈ node.owners) (fun m => node.Mentions m) := by
  have induction := Expr.sourced_induction (· ∈ node.owners) fun m => node.Mentions m
  cases node with
  | expr e =>
      exact induction.expr e (fun _ owner => owner) (fun _ mentioned => mentioned) step listed
  | relation r =>
      exact induction.relation r (fun _ owner => owner) (fun _ mentioned => mentioned) step listed
  | statement s =>
      cases s with
      | create s =>
          obtain ⟨⟨id, path, schema⟩, source, ifNotExists, primaryKeys⟩ := s
          cases source with
          | some source =>
              exact induction.relation source (fun _ owner => owner)
                (fun _ mentioned => ⟨source, List.mem_singleton_self source, mentioned⟩) step listed
          | none =>
              cases schema with
              | some schema => cases listed
              | none =>
                  obtain rfl := List.mem_singleton.mp listed
                  trivial
      | insert s =>
          obtain ⟨table, source, columns⟩ := s
          cases source with
          | rows rows => cases listed
          | query r =>
              exact induction.relation r (fun _ owner => owner)
                (fun _ mentioned => ⟨r, List.mem_singleton_self r, mentioned⟩) step listed
      | explain query =>
          exact induction.relation query (fun _ owner => owner)
            (fun _ mentioned => ⟨query, List.mem_singleton_self query, mentioned⟩) step listed
      | drop s => cases listed
      | truncate t => cases listed
      | commit => cases listed

end SqlQuery
