import SqlQuery.Proofs.Query.Induction
import SqlQuery.Proofs.Render.Outcome
import SqlQuery.Proofs.Render.Scope

/-!
The text of a source of a join. A source is written with the aliases of the whole join in scope,
and with those of the joins around it. Its text is what it would be alone exactly when these
aliases disturb none of the columns that it shows.
-/

namespace SqlQuery

/-! A single column. -/

namespace ScopedAlias

@[simp] theorem length_scope (aliases : List ScopedAlias) :
    (scope aliases).length = aliases.length :=
  List.length_map ..

theorem scope_append (outer inner : List ScopedAlias) :
    scope (outer ++ inner) = scope outer ++ scope inner :=
  List.map_append

def owning (aliases : List ScopedAlias) (owner : RelationId) : List ScopedAlias :=
  aliases.filter (·.owners.contains owner)

theorem covering_scope (aliases : List ScopedAlias) (owner : RelationId) :
    (scope aliases).covering owner = (owning aliases owner).length := by
  rw [Scope.covering, scope, List.countP_map, List.countP_eq_length_filter]
  rfl

theorem owning_append (outer inner : List ScopedAlias) (owner : RelationId) :
    owning (outer ++ inner) owner = owning outer owner ++ owning inner owner :=
  List.filter_append ..

/-- The aliases that a column can be written after: a single one in scope is not written. -/
def candidates (aliases : List ScopedAlias) (owner : RelationId) : List ScopedAlias :=
  if aliases.length ≤ 1 then [] else owning aliases owner

end ScopedAlias

namespace Context

def columnAfter (ctx : Context) (name : String) : List ScopedAlias → Except Error String
  | [] => .ok (ctx.quote name)
  | [only] => .ok (ctx.quote only.name ++ "." ++ ctx.quote name)
  | _ => .error (.tooManyAliases name)

theorem column_eq_columnAfter (ctx : Context) (owner : RelationId) (name : String) :
    ctx.column owner name =
      ctx.columnAfter name (ScopedAlias.candidates ctx.aliases owner) := by
  obtain ⟨dialect, autocommit, inSelect, inJoin, aliases⟩ := ctx
  match aliases with
  | [] => rfl
  | [_] => rfl
  | first :: second :: rest =>
      have many : ¬ (first :: second :: rest).length ≤ 1 := by simp
      rw [ScopedAlias.candidates, if_neg many]
      rfl

theorem columnAfter_of_two_le (ctx : Context) (name : String) {aliases : List ScopedAlias}
    (many : 2 ≤ aliases.length) :
    ctx.columnAfter name aliases = .error (.tooManyAliases name) := by
  match aliases, many with
  | _ :: _ :: _, _ => rfl

variable {outer inner : List ScopedAlias} {owner : RelationId}

open ScopedAlias

/-- Aliases around a query that leave a column alone do not show in its text. -/
theorem column_append_of_undisturbed (ctx : Context) (name : String)
    (undisturbed : Occurrence.Undisturbed (scope outer) ⟨scope inner, owner⟩) :
    (ctx.under (outer ++ inner)).column owner name = (ctx.under inner).column owner name := by
  rw [column_eq_columnAfter, column_eq_columnAfter]
  simp only [Occurrence.Undisturbed, covering_scope, length_scope] at undisturbed
  change ctx.columnAfter name (candidates (outer ++ inner) owner) =
    ctx.columnAfter name (candidates inner owner)
  rcases undisturbed with few | none | twice | ⟨noneOuter, singleInner⟩
  · rw [candidates, candidates, if_pos (by simpa using few), if_pos (by omega)]
  · rw [List.map_eq_nil_iff.mp none, List.nil_append]
  · have innerMany : 2 ≤ inner.length := Nat.le_trans twice (List.length_filter_le ..)
    rw [candidates, candidates, if_neg (by simp; omega), if_neg (by omega),
      columnAfter_of_two_le _ _ (by rw [owning_append, List.length_append]; omega),
      columnAfter_of_two_le _ _ twice]
  · have noOwning : inner.length ≤ 1 → owning inner owner = [] := by
      intro few
      apply List.eq_nil_of_length_eq_zero
      by_cases single : inner.length = 1
      · exact singleInner single
      · have := List.length_filter_le (fun a : ScopedAlias => a.owners.contains owner) inner
        simp only [owning]
        omega
    rw [candidates, candidates, owning_append, List.eq_nil_of_length_eq_zero noneOuter,
      List.nil_append]
    by_cases few : inner.length ≤ 1
    · rw [noOwning few, ite_self, ite_self]
    · rw [if_neg few, if_neg (by simp; omega)]

/-- A column that the aliases around a query disturb has a text in the query alone, and inside
them it has a longer one or none. -/
theorem column_append_of_disturbed (ctx : Context) (name : String)
    (disturbed : ¬ Occurrence.Undisturbed (scope outer) ⟨scope inner, owner⟩) :
    ∃ short, (ctx.under inner).column owner name = .ok short ∧
      ∀ long, (ctx.under (outer ++ inner)).column owner name = .ok long →
        short.length < long.length := by
  rw [column_eq_columnAfter, column_eq_columnAfter]
  simp only [Occurrence.Undisturbed, covering_scope, length_scope, not_or, not_and,
    Classical.not_imp] at disturbed
  obtain ⟨many, someOuter, atMostOne, owned⟩ := disturbed
  change ∃ short, ctx.columnAfter name (candidates inner owner) = .ok short ∧
    ∀ long, ctx.columnAfter name (candidates (outer ++ inner) owner) = .ok long →
      short.length < long.length
  have candidatesOuter :
      candidates (outer ++ inner) owner = owning outer owner ++ owning inner owner := by
    rw [candidates, if_neg (by simp; omega), owning_append]
  have bare_lt (a : ScopedAlias) :
      (ctx.quote name).length < (ctx.quote a.name ++ "." ++ ctx.quote name).length := by
    simp only [String.length_append]
    have : ".".length = 1 := rfl
    omega
  rw [candidatesOuter]
  match ownedInner : owning inner owner, atMostOne with
  | [], _ =>
      refine ⟨ctx.quote name, by rw [candidates, ownedInner, ite_self]; rfl, ?_⟩
      intro long written
      match ownedOuter : owning outer owner with
      | [] => simp [ownedInner, ownedOuter] at owned
      | [only] =>
          rw [ownedOuter] at written
          cases written
          exact bare_lt only
      | _ :: _ :: _ =>
          rw [ownedOuter] at written
          cases written
  | [only], _ =>
      match ownedOuter : owning outer owner with
      | [] =>
          have single : inner.length = 1 := (owned (by rw [ownedOuter]; rfl)).1
          refine ⟨ctx.quote name, by rw [candidates, if_pos (by omega)]; rfl, ?_⟩
          intro long written
          cases written
          exact bare_lt only
      | first :: rest =>
          have tooMany : 2 ≤ (first :: rest ++ [only]).length := by simp
          rw [columnAfter_of_two_le ctx name tooMany]
          by_cases single : inner.length ≤ 1
          · exact ⟨_, by rw [candidates, if_pos single]; rfl, nofun⟩
          · exact ⟨_, by rw [candidates, if_neg single, ownedInner]; rfl, nofun⟩
  | _ :: _ :: _, atMostOne => simp at atMostOne
end Context

/-! The aliases of a join. -/

def sourceAlias (r : Relation) (ids : Identities := .omitted) : Rendering ScopedAlias :=
  match r with
  | .aliased a => return ⟨a.name, [a.id, a.source.id]⟩
  | r => do
      let name ← Rendering.newName
      return ⟨name, (← Rendering.draw ids) ++ [r.id]⟩

theorem joinAliases_cons {ids : Identities} (r : Relation) (rest : List Relation) :
    joinAliases (r :: rest) ids = (do
      let first ← sourceAlias r ids
      let others ← joinAliases rest ids
      return first :: others) := by
  cases r with
  | aliased a => rfl
  | _ => simp only [joinAliases, sourceAlias, bind_assoc, pure_bind]

theorem owners_of_sourceAlias {r : Relation} {draft final : Draft} {a : ScopedAlias}
    (named : (sourceAlias r).outcome draft = (.ok a, final)) : a.owners = r.owned := by
  cases r <;> cases named <;> rfl

theorem scope_of_joinAliases {sources : List Relation} {draft final : Draft}
    {aliases : List ScopedAlias}
    (named : (joinAliases sources).outcome draft = (.ok aliases, final)) :
    ScopedAlias.scope aliases = joinScope sources := by
  induction sources generalizing draft aliases with
  | nil => cases named; rfl
  | cons r rest induction =>
      rw [joinAliases_cons] at named
      obtain ⟨a, middle, firstNamed, restNamed⟩ := ExceptT.outcome_bind_eq_ok.mp named
      obtain ⟨others, last, othersNamed, result⟩ := ExceptT.outcome_bind_eq_ok.mp restNamed
      cases result
      change a.owners :: ScopedAlias.scope others = r.owned :: joinScope rest
      rw [owners_of_sourceAlias firstNamed, induction othersNamed]

/-! Columns that are left alone. -/

def Quiet (outer : Scope) (occurrences : List Occurrence) : Prop :=
  ∀ o ∈ occurrences, o.Undisturbed outer

instance (outer : Scope) (occurrences : List Occurrence) : Decidable (Quiet outer occurrences) :=
  inferInstanceAs (Decidable (∀ o ∈ occurrences, o.Undisturbed outer))

theorem quiet_append {outer : Scope} {first second : List Occurrence} :
    Quiet outer (first ++ second) ↔ Quiet outer first ∧ Quiet outer second :=
  List.forall_mem_append

section Kept

variable (outer : List ScopedAlias) (links : Links) (reach : Reach)

/-- A text whose columns are left alone is the same with the outer aliases in scope. -/
def TextKept (occurrences : Scope → List Occurrence) (render : Context → Rendering α) : Prop :=
  ∀ (ctx : Context) (inner : List ScopedAlias),
    Quiet (ScopedAlias.scope outer) (occurrences (ScopedAlias.scope inner)) →
      render (ctx.under (outer ++ inner)) = render (ctx.under inner)

structure Links.Kept : Prop where
  placeholder : ∀ id name, TextKept outer (reach.placeholder id) (links.placeholder id name)
  param : ∀ name, TextKept outer (reach.param name) (links.param name)

def Expr.Kept (e : Expr) : Prop :=
  TextKept outer (fun scope => e.occurrences reach scope) fun ctx => e.render links ctx

def Relation.Kept (r : Relation) : Prop :=
  TextKept outer (fun scope => r.occurrences reach scope) fun ctx => r.render links ctx

variable {outer links reach}

theorem Expr.renderAll_kept {es : List Expr} (kept : ∀ e ∈ es, e.Kept outer links reach) :
    TextKept outer (fun scope => Expr.occurrencesOfAll reach scope es)
      fun ctx => Expr.renderAll links ctx es := by
  induction es with
  | nil => intro ctx inner _; rfl
  | cons e rest induction =>
      obtain ⟨headKept, restKept⟩ := List.forall_mem_cons.mp kept
      intro ctx inner quiet
      obtain ⟨headQuiet, restQuiet⟩ := quiet_append.mp quiet
      have head := headKept ctx inner headQuiet
      have tail := induction restKept ctx inner restQuiet
      simp only [Expr.renderAll] at head tail ⊢
      rw [head, tail]

theorem Expr.renderBranches_kept {branches : List (BranchOf Expr)}
    (kept : ∀ b ∈ branches, b.condition.Kept outer links reach ∧ b.result.Kept outer links reach) :
    TextKept outer (fun scope => Expr.occurrencesOfBranches reach scope branches)
      fun ctx => Expr.renderBranches links ctx branches := by
  induction branches with
  | nil => intro ctx inner _; rfl
  | cons branch rest induction =>
      obtain ⟨⟨conditionKept, resultKept⟩, restKept⟩ := List.forall_mem_cons.mp kept
      intro ctx inner quiet
      obtain ⟨branchQuiet, restQuiet⟩ := quiet_append.mp quiet
      obtain ⟨conditionQuiet, resultQuiet⟩ := quiet_append.mp branchQuiet
      have condition := conditionKept ctx inner conditionQuiet
      have result := resultKept ctx inner resultQuiet
      have tail := induction restKept ctx inner restQuiet
      simp only [Expr.renderBranches] at condition result tail ⊢
      rw [condition, result, tail]

theorem Relation.renderAll_kept {rs : List Relation}
    (kept : ∀ r ∈ rs, r.Kept outer links reach) :
    TextKept outer (fun scope => Relation.occurrencesOfAll reach scope rs)
      fun ctx => Relation.renderAll links ctx rs := by
  induction rs with
  | nil => intro ctx inner _; rfl
  | cons r rest induction =>
      obtain ⟨headKept, restKept⟩ := List.forall_mem_cons.mp kept
      intro ctx inner quiet
      obtain ⟨headQuiet, restQuiet⟩ := quiet_append.mp quiet
      have head := headKept ctx inner headQuiet
      have tail := induction restKept ctx inner restQuiet
      simp only [Relation.renderAll] at head tail ⊢
      rw [head, tail]

theorem Relation.renderFrom_kept {source : Option Relation}
    (kept : ∀ r, source = some r → r.Kept outer links reach) :
    TextKept outer (fun scope => Relation.occurrencesOfOptional reach scope source)
      fun ctx => Relation.renderFrom links ctx source := by
  cases source with
  | none => intro ctx inner _; rfl
  | some r =>
      intro ctx inner quiet
      have text := kept r rfl ctx inner quiet
      simp only [Relation.renderFrom] at text ⊢
      rw [text]

theorem Expr.renderSelected_kept {columns : Option (List Expr)}
    (kept : ∀ es, columns = some es → ∀ e ∈ es, e.Kept outer links reach) :
    TextKept outer (fun scope => Expr.occurrencesOfOptional reach scope columns)
      fun ctx => Expr.renderSelected links ctx columns := by
  cases columns with
  | none => intro ctx inner _; rfl
  | some es => exact Expr.renderAll_kept (kept es rfl)

theorem Expr.renderJoined_kept {columns : Option (List Expr)}
    (kept : ∀ es, columns = some es → ∀ e ∈ es, e.Kept outer links reach) :
    TextKept outer (fun scope => Expr.occurrencesOfOptional reach scope columns)
      fun ctx => Expr.renderJoined links ctx columns := by
  cases columns with
  | none => intro ctx inner _; rfl
  | some es =>
      intro ctx inner quiet
      have texts := Expr.renderAll_kept (kept es rfl) ctx inner quiet
      simp only [Expr.renderJoined] at texts ⊢
      rw [texts]

theorem Relation.Kept.query {r : Relation} (kept : r.Kept outer links reach) :
    TextKept outer (fun scope => r.occurrences reach scope)
      fun ctx => ctx.query r fun ctx => r.render links ctx := by
  intro ctx inner quiet
  have direct := kept ctx inner quiet
  have named := kept (ctx.placed true ctx.inJoin) inner quiet
  simp only [Context.query_omitted] at direct named ⊢
  by_cases isQuery : r.isQuery = true
  · rw [if_pos isQuery, if_pos isQuery, direct]
  · rw [if_neg isQuery, if_neg isQuery]
    change (Relation.render links ((ctx.placed true ctx.inJoin).under (outer ++ inner)) r >>= _) =
      _
    rw [named]
    rfl

theorem selectText_kept {columns : Context → Rendering (List String)}
    {source : Context → Rendering (Option String)}
    {filters groupBy having orderBy : Context → Rendering (List String)}
    {inColumns inSource inFilters inGroupBy inHaving inOrderBy : Scope → List Occurrence}
    (distinct : Bool) (limit : Option UInt64)
    (columnsKept : TextKept outer inColumns columns)
    (sourceKept : TextKept outer inSource source)
    (filtersKept : TextKept outer inFilters filters)
    (groupByKept : TextKept outer inGroupBy groupBy)
    (havingKept : TextKept outer inHaving having)
    (orderByKept : TextKept outer inOrderBy orderBy) :
    TextKept outer
      (fun scope => inColumns scope ++ inSource scope ++ inFilters scope ++ inGroupBy scope ++
        inHaving scope ++ inOrderBy scope)
      (fun ctx => do
        let inner := ctx.placed true ctx.inJoin
        let sql ← selectText ctx.dialect distinct limit (columns inner) (source inner)
          (filters inner) (groupBy inner) (having inner) (orderBy inner)
        ctx.enclose sql) := by
  intro ctx inner quiet
  simp only [quiet_append] at quiet
  obtain ⟨⟨⟨⟨⟨quietColumns, quietSource⟩, quietFilters⟩, quietGroupBy⟩, quietHaving⟩,
    quietOrderBy⟩ := quiet
  let place := ctx.placed true ctx.inJoin
  change selectText ctx.dialect distinct limit (columns (place.under (outer ++ inner)))
      (source (place.under (outer ++ inner))) (filters (place.under (outer ++ inner)))
      (groupBy (place.under (outer ++ inner))) (having (place.under (outer ++ inner)))
      (orderBy (place.under (outer ++ inner))) >>= _ = _
  rw [columnsKept place inner quietColumns, sourceKept place inner quietSource,
    filtersKept place inner quietFilters, groupByKept place inner quietGroupBy,
    havingKept place inner quietHaving, orderByKept place inner quietOrderBy]
  rfl

theorem Relation.select_kept {s : Select}
    (parts : s.Parts (Expr.Kept outer links reach) (Relation.Kept outer links reach)) :
    (Relation.select s).Kept outer links reach := by
  intro ctx inner quiet
  simp only [Relation.occurrences_select] at quiet
  simp only [Relation.render_select]
  exact selectText_kept s.distinct s.limit (Expr.renderSelected_kept parts.columns)
    (Relation.renderFrom_kept parts.table) (Expr.renderAll_kept parts.filters)
    (Expr.renderAll_kept parts.groupBy) (Expr.renderAll_kept parts.having)
    (Expr.renderAll_kept parts.orderBy) ctx inner quiet

theorem Expr.renderAll_append_kept {first second : List Expr}
    (firstKept : ∀ e ∈ first, e.Kept outer links reach)
    (secondKept : ∀ e ∈ second, e.Kept outer links reach) :
    TextKept outer
      (fun scope => Expr.occurrencesOfAll reach scope first ++
        Expr.occurrencesOfAll reach scope second)
      fun ctx => do
        return (← Expr.renderAll links ctx first) ++ (← Expr.renderAll links ctx second) := by
  intro ctx inner quiet
  obtain ⟨firstQuiet, secondQuiet⟩ := quiet_append.mp quiet
  have firstText := Expr.renderAll_kept firstKept ctx inner firstQuiet
  have secondText := Expr.renderAll_kept secondKept ctx inner secondQuiet
  simp only at firstText secondText ⊢
  rw [firstText, secondText]

theorem Relation.grouping_kept {table : Relation} {keys values having : List Expr}
    (id : RelationId) (tableKept : table.Kept outer links reach)
    (parts : ∀ s, table = .select s →
      s.Parts (Expr.Kept outer links reach) (Relation.Kept outer links reach))
    (keysKept : ∀ e ∈ keys, e.Kept outer links reach)
    (valuesKept : ∀ e ∈ values, e.Kept outer links reach)
    (havingKept : ∀ e ∈ having, e.Kept outer links reach) :
    (Relation.grouping ⟨id, table, keys, values, having⟩).Kept outer links reach := by
  intro ctx inner quiet
  rcases table.plain_or_nested with ⟨s, rfl, plain⟩ | nested
  · have selectParts := parts s rfl
    have positions :
        TextKept outer (fun _ => []) (fun _ => (pure (keyPositions keys) : Rendering _)) :=
      fun _ _ _ => rfl
    simp only [Relation.occurrences_grouping_plain _ _ _ _ _ _ _ plain, quiet_append] at quiet
    simp only [Relation.render_grouping_plain _ _ _ _ _ _ _ plain]
    apply selectText_kept false none (Expr.renderAll_append_kept keysKept valuesKept)
      (Relation.renderFrom_kept selectParts.table) (Expr.renderAll_kept selectParts.filters)
      positions (Expr.renderAll_kept havingKept) (Expr.renderAll_kept selectParts.orderBy)
    simp only [quiet_append]
    obtain ⟨⟨⟨quietKeys, quietValues⟩, quietHaving⟩, ⟨quietSource, quietFilters⟩, quietOrderBy⟩ :=
      quiet
    exact ⟨⟨⟨⟨⟨⟨quietKeys, quietValues⟩, quietSource⟩, quietFilters⟩, nofun⟩, quietHaving⟩,
      quietOrderBy⟩
  · simp only [Relation.occurrences_grouping_nested _ _ _ _ _ _ _ nested, quiet_append] at quiet
    obtain ⟨⟨⟨quietKeys, quietValues⟩, quietHaving⟩, quietTable⟩ := quiet
    have keyTexts := Expr.renderAll_kept keysKept ctx inner quietKeys
    have valueTexts := Expr.renderAll_kept valuesKept ctx inner quietValues
    have havingTexts := Expr.renderAll_kept havingKept ctx inner quietHaving
    have source : table.render links ((ctx.under (outer ++ inner)).placed true false) =
        table.render links ((ctx.under inner).placed true false) :=
      tableKept (ctx.placed true false) inner quietTable
    simp only [Relation.render_grouping_nested _ _ _ _ _ _ _ nested] at keyTexts valueTexts ⊢
    simp only at havingTexts
    rw [keyTexts, valueTexts, source, havingTexts]
    rfl

theorem Relation.join_kept {sources : List Relation} {on : List Expr}
    {columns : Option (List Expr)} (id : RelationId) (kind : JoinKind)
    (sourcesKept : ∀ r ∈ sources, r.Kept outer links reach)
    (onKept : ∀ e ∈ on, e.Kept outer links reach)
    (columnsKept : ∀ es, columns = some es → ∀ e ∈ es, e.Kept outer links reach) :
    (Relation.join ⟨id, sources, kind, on, columns⟩).Kept outer links reach := by
  intro ctx inner quiet
  simp only [Relation.occurrences_join, quiet_append] at quiet
  simp only [Relation.render_join]
  apply ExceptT.bind_congr_of_outcome
  intro draft aliases final named
  -- Inside the join, its own aliases come after those that were in scope.
  rw [← scope_of_joinAliases named, ← ScopedAlias.scope_append] at quiet
  obtain ⟨⟨quietSources, quietOn⟩, quietColumns⟩ := quiet
  have joined : (ctx.under (outer ++ inner)).joined aliases =
      (ctx.placed false true).under (outer ++ (inner ++ aliases)) := by
    rw [← List.append_assoc]
    rfl
  have texts := Relation.renderAll_kept sourcesKept (ctx.placed false true) _ quietSources
  have onTexts := Expr.renderAll_kept onKept (ctx.placed false true) _ quietOn
  have columnTexts := Expr.renderJoined_kept columnsKept (ctx.placed false true) _ quietColumns
  simp only at texts onTexts columnTexts
  rw [joined, texts, onTexts, columnTexts]
  rfl

/-- Every query is kept if what stands behind its placeholders and parameters is. -/
theorem Links.Kept.induction (linked : links.Kept outer reach) :
    QueryInduction (Expr.Kept outer links reach) (Relation.Kept outer links reach) where
  value _ := fun _ _ _ => rfl
  code _ := fun _ _ _ => rfl
  column c := by
    obtain ⟨source, name⟩ := c
    intro ctx inner quiet
    have undisturbed := List.forall_mem_singleton.mp quiet
    have text := Context.column_append_of_undisturbed ctx name undisturbed
    simp only [Expr.render]
    rw [text]
  placeholder id name := linked.placeholder id name
  aliased e name kept := by
    intro ctx inner quiet
    have text := kept ctx inner quiet
    simp only [Expr.render] at text ⊢
    rw [text]
    rfl
  concat items separator kept := by
    intro ctx inner quiet
    have texts := Expr.renderAll_kept kept ctx inner quiet
    simp only [Expr.render] at texts ⊢
    rw [texts]
    rfl
  countAll _ := fun _ _ _ => rfl
  count e distinct kept := by
    intro ctx inner quiet
    have text := kept ctx inner quiet
    simp only [Expr.render_count, Expr.renderCounted] at text ⊢
    rw [text]
  call function arguments kept := by
    intro ctx inner quiet
    have texts := Expr.renderAll_kept kept ctx inner quiet
    simp only [Expr.render] at texts ⊢
    rw [texts]
  case branches otherwise branchesKept otherwiseKept := by
    intro ctx inner quiet
    simp only [Expr.render_case]
    cases otherwise with
    | none =>
        have texts := Expr.renderBranches_kept branchesKept ctx inner quiet
        simp only at texts
        rw [texts]
        rfl
    | some e =>
        obtain ⟨branchesQuiet, elseQuiet⟩ := quiet_append.mp quiet
        have texts := Expr.renderBranches_kept branchesKept ctx inner branchesQuiet
        have elseText := otherwiseKept e rfl ctx inner elseQuiet
        simp only [Expr.renderElse] at texts elseText ⊢
        rw [texts, elseText]
  isDistinctFrom left right leftKept rightKept := by
    intro ctx inner quiet
    obtain ⟨leftQuiet, rightQuiet⟩ := quiet_append.mp quiet
    have leftText := leftKept ctx inner leftQuiet
    have rightText := rightKept ctx inner rightQuiet
    simp only [Expr.render] at leftText rightText ⊢
    rw [leftText, rightText]
    rfl
  binary operator arguments kept := by
    intro ctx inner quiet
    have texts := Expr.renderAll_kept kept ctx inner quiet
    simp only [Expr.render] at texts ⊢
    rw [texts]
  negate e kept := by
    intro ctx inner quiet
    have text := kept ctx inner quiet
    simp only [Expr.render] at text ⊢
    rw [text]
  isIn e list kept listKept := by
    intro ctx inner quiet
    obtain ⟨quietExpr, quietList⟩ := quiet_append.mp quiet
    have text := kept ctx inner quietExpr
    have texts := Expr.renderAll_kept listKept ctx inner quietList
    simp only [Expr.render] at text texts ⊢
    rw [text, texts]
  cast e type kept := by
    intro ctx inner quiet
    have text := kept ctx inner quiet
    simp only [Expr.render] at text ⊢
    rw [text]
    rfl
  random := fun _ _ _ => rfl
  currentTimestamp := fun _ _ _ => rfl
  param name := linked.param name
  subquery r kept := by
    intro ctx inner quiet
    have text := kept.query (ctx.placed false false) inner quiet
    simp only [Expr.render] at text ⊢
    exact congrArg (fun render : Rendering String => do return "(" ++ (← render) ++ ")") text
  table _ := fun _ _ _ => rfl
  tableAlias id source name kept := by
    intro ctx inner quiet
    have text := kept (ctx.placed false true) inner quiet
    simp only [Relation.render] at text ⊢
    exact congrArg (fun render : Rendering String => do return (← render) ++ " " ++ ctx.quote name)
      text
  join id _ kind _ _ sourcesKept onKept columnsKept :=
    Relation.join_kept id kind sourcesKept onKept columnsKept
  grouping id _ _ _ _ tableKept parts keysKept valuesKept havingKept :=
    Relation.grouping_kept id tableKept parts keysKept valuesKept havingKept
  setOperation id operator left right leftKept rightKept := by
    intro ctx inner quiet
    obtain ⟨leftQuiet, rightQuiet⟩ := quiet_append.mp quiet
    have leftText := leftKept.query (ctx.placed false ctx.inJoin) inner leftQuiet
    have rightText := rightKept.query (ctx.placed false ctx.inJoin) inner rightQuiet
    simp only [Relation.render] at leftText rightText ⊢
    change (((ctx.placed false ctx.inJoin).under (outer ++ inner)).query left _ >>= fun _ =>
      ((ctx.placed false ctx.inJoin).under (outer ++ inner)).query right _ >>= _) = _
    rw [leftText, rightText]
    rfl
  select _ parts := Relation.select_kept parts
  cte id source name params _ := by
    intro ctx inner _
    simp only [Relation.render_cte]
    rfl
  tableParam p := linked.param p.name

theorem Node.render_kept (linked : links.Kept outer reach) (node : Node) :
    TextKept outer (fun scope => node.occurrences reach scope)
      fun ctx => node.render links ctx := by
  have relationKept := linked.induction.relation
  match node with
  | .expr e => exact linked.induction.expr e
  | .relation r => exact relationKept r
  | .statement (.create ⟨t, none, ifNotExists, primaryKeys⟩) => exact fun _ _ _ => rfl
  | .statement (.create ⟨t, some r, ifNotExists, primaryKeys⟩) =>
      intro ctx inner quiet
      have text := relationKept r ctx inner quiet
      simp only [Node.render, Statement.render, CreateTable.render] at text ⊢
      rw [text]
      rfl
  | .statement (.insert ⟨t, .rows rows, columns⟩) => exact fun _ _ _ => rfl
  | .statement (.insert ⟨t, .query r, columns⟩) =>
      intro ctx inner quiet
      have text := relationKept r ctx inner quiet
      simp only [Node.render, Statement.render, Insert.render] at text ⊢
      rw [text]
      rfl
  | .statement (.explain r) =>
      intro ctx inner quiet
      have text := (relationKept r).query ctx inner quiet
      simp only [Node.render, Statement.render] at text ⊢
      rw [text]
      rfl
  | .statement (.drop _) => exact fun _ _ _ => rfl
  | .statement (.truncate _) => exact fun _ _ _ => rfl
  | .statement .commit => exact fun _ _ _ => rfl

theorem Settings.links_kept (store : Store) (settings : Settings) (outer : List ScopedAlias)
    (depth : Nat) : (settings.links store depth).Kept outer (settings.reach store depth) := by
  induction depth with
  | zero => exact ⟨fun _ _ _ _ _ => rfl, fun _ _ _ _ => rfl⟩
  | succ depth induction =>
      constructor
      · intro id name ctx inner quiet
        simp only [Settings.links, Settings.reach, Store.resolve] at quiet ⊢
        cases bound : store.binding? id with
        | none => rfl
        | some e =>
            rw [bound] at quiet
            exact induction.induction.expr e ctx inner quiet
      · intro name ctx inner quiet
        simp only [Settings.links, Settings.reach, Settings.param] at quiet ⊢
        cases given : settings.params.bind (·.lookup name) with
        | none => rfl
        | some node =>
            rw [given] at quiet
            exact Node.render_kept induction node ctx inner quiet

end Kept

end SqlQuery
