import SqlQuery.Proofs.Render.JoinScope
import SqlQuery.Proofs.Render.Reference

/-!
What can stop the writing of a node. Its trace lists, in the order in which they are met, the
columns that have to be told apart, the placeholders and parameters that have to be followed, and
the parts that cannot be written at all. The first of them that fails gives the error of the whole.
-/

namespace SqlQuery

inductive Event where
  | column (owner : RelationId) (name : String)
  | link (m : Mention) (name : String)
  | stop (e : Error) (ended : e ≠ .unending)

/-- An event under the aliases that the joins inside a text bring into scope. In the body of a
definition the aliases around the text are out of scope. -/
structure Step where
  inner : Scope := []
  detached : Bool := false
  event : Event

namespace Step

/-- The scope of a step, in a text with the given scope around it. -/
def scope (outer : Scope) (step : Step) : Scope :=
  if step.detached then step.inner else outer ++ step.inner

def within (added : Scope) (step : Step) : Step :=
  if step.detached then step else { step with inner := added ++ step.inner }

def detach (step : Step) : Step :=
  { step with detached := true }

theorem scope_within (outer added : Scope) (step : Step) :
    (step.within added).scope outer = step.scope (outer ++ added) := by
  obtain ⟨inner, detached, event⟩ := step
  cases detached with
  | false => exact (List.append_assoc outer added inner).symm
  | true => rfl

theorem scope_detach (outer : Scope) (step : Step) :
    step.detach.scope outer = step.scope [] := by
  obtain ⟨inner, detached, event⟩ := step
  cases detached <;> rfl

theorem event_within (added : Scope) (step : Step) : (step.within added).event = step.event := by
  rw [within]
  split <;> rfl

end Step

mutual

def Expr.trace : Expr → List Step
  | .column ⟨source, name⟩ => [{ event := .column source.id name }]
  | .placeholder id name => [{ event := .link (.placeholder id) name }]
  | .aliased e _ => e.trace
  | .concat items _ =>
      if items.isEmpty then [{ event := .stop .emptyConcat nofun }] else Expr.traceOfAll items
  | .count (some e) _ => e.trace
  | .call _ arguments => Expr.traceOfAll arguments
  | .case ⟨branches, otherwise⟩ =>
      if branches.isEmpty then [{ event := .stop .emptyCase nofun }]
      else Expr.traceOfBranches branches ++ Expr.traceOfElse otherwise
  | .isDistinctFrom left right => left.trace ++ right.trace
  | .binary _ arguments => Expr.traceOfAll arguments
  | .negate e => e.trace
  | .isIn e list => e.trace ++ Expr.traceOfAll list
  | .cast e _ => e.trace
  | .param name => [{ event := .link (.param name) name }]
  | .subquery r => r.trace
  | _ => []

def Expr.traceOfAll : List Expr → List Step
  | [] => []
  | e :: rest => e.trace ++ Expr.traceOfAll rest

def Expr.traceOfOptional : Option (List Expr) → List Step
  | none => []
  | some es => Expr.traceOfAll es

def Expr.traceOfElse : Option Expr → List Step
  | none => []
  | some e => e.trace

def Expr.traceOfBranches : List (BranchOf Expr) → List Step
  | [] => []
  | ⟨condition, result⟩ :: rest =>
      condition.trace ++ (result.trace ++ Expr.traceOfBranches rest)

def Relation.trace : Relation → List Step
  | .table _ => []
  | .aliased ⟨_, source, _⟩ => source.trace
  | .join ⟨_, sources, _, on, columns⟩ =>
      (Relation.traceOfAll sources ++ (Expr.traceOfAll on ++ Expr.traceOfOptional columns)).map
        (Step.within (joinScope sources))
  | .grouping ⟨_, table, keys, values, having⟩ =>
      let nested := table.trace ++ Expr.traceOfAll having
      Expr.traceOfAll keys ++ (Expr.traceOfAll values ++
        match table with
        | .select ⟨_, source, columns, filters, orderBy, groupBy, _, limit, distinct⟩ =>
            -- A plain select that takes the grouping into itself gives up its own HAVING.
            if columns.isNone && groupBy.isEmpty && limit.isNone && !distinct then
              Relation.traceOfOptional source ++ (Expr.traceOfAll filters ++
                (Expr.traceOfAll having ++ Expr.traceOfAll orderBy))
            else
              nested
        | _ => nested)
  | .setOperation ⟨_, _, left, right⟩ => left.trace ++ right.trace
  | .select ⟨_, source, columns, filters, orderBy, groupBy, having, _, _⟩ =>
      Expr.traceOfOptional columns ++ (Relation.traceOfOptional source ++
        (Expr.traceOfAll filters ++ (Expr.traceOfAll groupBy ++
          (Expr.traceOfAll having ++ Expr.traceOfAll orderBy))))
  | .cte ⟨_, source, _, _⟩ => source.trace.map Step.detach
  | .param ⟨_, name⟩ => [{ event := .link (.tableParam name) name }]

def Relation.traceOfAll : List Relation → List Step
  | [] => []
  | r :: rest => r.trace ++ Relation.traceOfAll rest

def Relation.traceOfOptional : Option Relation → List Step
  | none => []
  | some r => r.trace

end

def Node.trace : Node → List Step
  | .expr e => e.trace
  | .relation r => r.trace
  | .statement (.create ⟨_, some source, _, _⟩) => source.trace
  | .statement (.create ⟨⟨_, _, some _⟩, none, _, _⟩) => []
  | .statement (.create ⟨⟨_, path, none⟩, none, _, _⟩) =>
      [{ event := .stop (.schemaRequired path.text) nofun }]
  | .statement (.insert ⟨_, .query r, _⟩) => r.trace
  | .statement (.explain r) => r.trace
  | .statement _ => []

theorem Relation.trace_select (s : Select) :
    (Relation.select s).trace =
      Expr.traceOfOptional s.columns ++ (Relation.traceOfOptional s.table ++
        (Expr.traceOfAll s.filters ++ (Expr.traceOfAll s.groupBy ++
          (Expr.traceOfAll s.having ++ Expr.traceOfAll s.orderBy)))) := by
  obtain ⟨id, table, columns, filters, orderBy, groupBy, having, limit, distinct⟩ := s
  rw [Relation.trace]

theorem Relation.trace_grouping_plain (id : RelationId) (s : Select)
    (keys values having : List Expr) (plain : s.isPlain = true) :
    (Relation.grouping ⟨id, .select s, keys, values, having⟩).trace =
      Expr.traceOfAll keys ++ (Expr.traceOfAll values ++ (Relation.traceOfOptional s.table ++
        (Expr.traceOfAll s.filters ++ (Expr.traceOfAll having ++ Expr.traceOfAll s.orderBy)))) := by
  obtain ⟨_, table, columns, filters, orderBy, groupBy, _, limit, distinct⟩ := s
  change (columns.isNone && groupBy.isEmpty && limit.isNone && !distinct) = true at plain
  rw [Relation.trace, if_pos plain]

theorem Relation.trace_grouping_nested (id : RelationId) (table : Relation)
    (keys values having : List Expr) (nested : ∀ s, table = .select s → s.isPlain = false) :
    (Relation.grouping ⟨id, table, keys, values, having⟩).trace =
      Expr.traceOfAll keys ++ (Expr.traceOfAll values ++
        (table.trace ++ Expr.traceOfAll having)) := by
  cases table with
  | select s =>
      obtain ⟨_, table, columns, filters, orderBy, groupBy, _, limit, distinct⟩ := s
      have notPlain :
          ¬ (columns.isNone && groupBy.isEmpty && limit.isNone && !distinct) = true :=
        Bool.eq_false_iff.mp (nested _ rfl)
      rw [Relation.trace, if_neg notPlain]
  | _ => rfl

/-! The first error. -/

/-- How an event fails in a scope. -/
abbrev Verdict := Scope → Event → Option Error

def firstError (verdict : Verdict) (outer : Scope) (steps : List Step) : Option Error :=
  steps.findSome? fun step => verdict (step.scope outer) step.event

section FirstError

variable (verdict : Verdict) (outer : Scope)

theorem firstError_append (first second : List Step) :
    firstError verdict outer (first ++ second) =
      (firstError verdict outer first).or (firstError verdict outer second) :=
  List.findSome?_append

theorem firstError_singleton (event : Event) :
    firstError verdict outer [{ event := event }] = verdict outer event := by
  simp [firstError, Step.scope]

theorem firstError_within (added : Scope) (steps : List Step) :
    firstError verdict outer (steps.map (Step.within added)) =
      firstError verdict (outer ++ added) steps := by
  rw [firstError, firstError, List.findSome?_map]
  congr 1
  funext step
  rw [Function.comp, Step.scope_within, Step.event_within]

theorem firstError_detach (steps : List Step) :
    firstError verdict outer (steps.map Step.detach) = firstError verdict [] steps := by
  rw [firstError, firstError, List.findSome?_map]
  congr 1
  funext step
  rw [Function.comp, Step.scope_detach]
  rfl

variable {verdict outer}

theorem firstError_eq_none_iff {steps : List Step} :
    firstError verdict outer steps = none ↔
      ∀ step ∈ steps, verdict (step.scope outer) step.event = none :=
  List.findSome?_eq_none_iff

theorem firstError_eq_some_iff {steps : List Step} {e : Error} :
    firstError verdict outer steps = some e ↔
      ∃ before step after, steps = before ++ step :: after ∧
        verdict (step.scope outer) step.event = some e ∧
        ∀ earlier ∈ before, verdict (earlier.scope outer) earlier.event = none :=
  List.findSome?_eq_some_iff

theorem firstError_congr {verdict' : Verdict} {outer' : Scope} {steps : List Step}
    (same : ∀ step ∈ steps, verdict (step.scope outer) step.event =
      verdict' (step.scope outer') step.event) :
    firstError verdict outer steps = firstError verdict' outer' steps := by
  induction steps with
  | nil => rfl
  | cons step rest ih =>
      obtain ⟨head, tail⟩ := List.forall_mem_cons.mp same
      change List.findSome? _ _ = List.findSome? _ _
      rw [List.findSome?_cons, List.findSome?_cons, head]
      cases verdict' (step.scope outer') step.event with
      | none => exact ih tail
      | some e => rfl

end FirstError

namespace Rendering

variable {α β : Type} {x : Rendering α} {error later : Option Error}

/-- The step stops with the error, or where there is none comes to a result, from every draft. -/
def Stops (x : Rendering α) (error : Option Error) : Prop :=
  ∀ draft, (match (x.outcome draft).1 with
    | .error e => some e
    | .ok _ => none) = error

namespace Stops

theorem pure (a : α) : Stops (Pure.pure a : Rendering α) none :=
  fun _ => rfl

theorem throw (e : Error) : Stops (MonadExcept.throw e : Rendering α) (some e) :=
  fun _ => rfl

theorem newName : Stops Rendering.newName none :=
  fun _ => rfl

theorem define (head body : String) : Stops (Rendering.define head body) none :=
  fun _ => rfl

/-- What comes after a step counts only if the step comes to a result. -/
theorem bind_of_outcome {f : α → Rendering β} (first : Stops x error)
    (rest : ∀ draft a middle, x.outcome draft = (.ok a, middle) → Stops (f a) later) :
    Stops (x >>= f) (error.or later) := by
  intro draft
  have stops := first draft
  rcases outcome : x.outcome draft with ⟨e | a, middle⟩
  · rw [outcome] at stops
    subst stops
    rw [ExceptT.outcome_bind_of_error outcome]
    rfl
  · rw [outcome] at stops
    subst stops
    rw [ExceptT.outcome_bind_of_ok outcome]
    exact rest draft a middle outcome middle

theorem bind {f : α → Rendering β} (first : Stops x error) (rest : ∀ a, Stops (f a) later) :
    Stops (x >>= f) (error.or later) :=
  first.bind_of_outcome fun _ a _ _ => rest a

theorem after {f : α → Rendering β} (first : Stops x none)
    (rest : ∀ draft a middle, x.outcome draft = (.ok a, middle) → Stops (f a) later) :
    Stops (x >>= f) later :=
  first.bind_of_outcome rest

theorem finish {f : α → Rendering β} (first : Stops x error) (rest : ∀ a, Stops (f a) none) :
    Stops (x >>= f) error := by
  have whole := first.bind rest
  rwa [Option.or_none] at whole

theorem map {f : α → β} (stops : Stops x error) : Stops (x >>= fun a => Pure.pure (f a)) error :=
  stops.finish fun a => pure (f a)

end Stops

end Rendering

open Rendering (Stops)

def Context.scope (ctx : Context) : Scope :=
  ScopedAlias.scope ctx.aliases

theorem Context.scope_joined (ctx : Context) (aliases : List ScopedAlias) :
    (ctx.joined aliases).scope = ctx.scope ++ ScopedAlias.scope aliases :=
  ScopedAlias.scope_append ctx.aliases aliases

/-! The parts of a query. -/

theorem Context.enclose_stops (ctx : Context) (sql : String) : Stops (ctx.enclose sql) none := by
  rw [Context.enclose]
  split
  · exact Stops.newName.map
  · split
    · exact .pure _
    · exact .pure _

/-- A column that several aliases cover cannot be written. -/
theorem Context.column_stops (ctx : Context) (owner : RelationId) (name : String) :
    Stops (ctx.column owner name : Rendering String)
      (if 2 ≤ ctx.scope.covering owner then some (.tooManyAliases name) else none) := by
  have covering := ScopedAlias.covering_scope ctx.aliases owner
  have few : (ScopedAlias.owning ctx.aliases owner).length ≤ ctx.aliases.length :=
    List.length_filter_le ..
  rw [Context.column_eq_columnAfter, Context.scope, covering, ScopedAlias.candidates]
  split
  · rw [if_neg (by omega)]
    exact .pure _
  · split
    · next many =>
        rw [Context.columnAfter_of_two_le ctx name many]
        exact .throw _
    · next notMany =>
        generalize ScopedAlias.owning ctx.aliases owner = owning at notMany ⊢
        rcases owning with _ | ⟨_, _ | ⟨_, _⟩⟩
        · exact .pure _
        · exact .pure _
        · exact absurd (by simp) notMany

theorem joinAliases_stops (sources : List Relation) : Stops (joinAliases sources) none := by
  induction sources with
  | nil => exact .pure _
  | cons r rest ih =>
      have named : Stops (do
          let name ← Rendering.newName
          return (⟨name, [r.id]⟩ : ScopedAlias) :: (← joinAliases rest)) none :=
        Stops.newName.finish fun name => ih.map
      cases r with
      | aliased a => exact ih.map
      | _ => exact named

theorem concatText_stops (dialect : Dialect) (separator : Option String) {items : List String}
    (some : items ≠ []) : Stops (concatText dialect separator items : Rendering String) none := by
  rw [concatText]
  split
  · next none => exact absurd (List.map_eq_nil_iff.mp none) some
  · exact .pure _
  · split
    · exact .pure _
    · exact .pure _

theorem selectText_stops {dialect : Dialect} {distinct : Bool} {limit : Option UInt64}
    {columns filters groupBy having orderBy : Rendering (List String)}
    {source : Rendering (Option String)}
    {inColumns inSource inFilters inGroupBy inHaving inOrderBy : Option Error}
    (columnsStop : Stops columns inColumns) (sourceStops : Stops source inSource)
    (filtersStop : Stops filters inFilters) (groupByStops : Stops groupBy inGroupBy)
    (havingStops : Stops having inHaving) (orderByStops : Stops orderBy inOrderBy) :
    Stops (selectText dialect distinct limit columns source filters groupBy having orderBy)
      (inColumns.or (inSource.or (inFilters.or (inGroupBy.or (inHaving.or inOrderBy))))) := by
  apply columnsStop.bind
  intro columnTexts
  apply sourceStops.bind
  intro sourceText
  apply filtersStop.bind
  intro filterTexts
  apply groupByStops.bind
  intro groupByTexts
  apply havingStops.bind
  intro havingTexts
  exact orderByStops.map

/-! Whole queries. -/

section

variable (links : Links) (verdict : Verdict)

/-- What stands behind placeholders and parameters stops as it should, and the other events fail
as they do. -/
structure Links.Traced : Prop where
  placeholder : ∀ id name (ctx : Context),
    Stops (links.placeholder id name ctx) (verdict ctx.scope (.link (.placeholder id) name))
  param : ∀ name (ctx : Context),
    Stops (links.param name ctx) (verdict ctx.scope (.link (.param name) name))
  tableParam : ∀ name (ctx : Context),
    Stops (links.param name ctx) (verdict ctx.scope (.link (.tableParam name) name))
  column : ∀ (scope : Scope) owner name, verdict scope (.column owner name) =
    if 2 ≤ scope.covering owner then some (.tooManyAliases name) else none
  stop : ∀ scope e ended, verdict scope (.stop e ended) = some e

def Expr.Traced (e : Expr) : Prop :=
  ∀ ctx : Context, Stops (e.render links ctx) (firstError verdict ctx.scope e.trace)

def Relation.Traced (r : Relation) : Prop :=
  ∀ ctx : Context, Stops (r.render links ctx) (firstError verdict ctx.scope r.trace)

end

section

variable {links : Links} {verdict : Verdict} (ctx : Context)

theorem Relation.Traced.query {r : Relation} (traced : r.Traced links verdict) :
    Stops (ctx.query r fun ctx => r.render links ctx) (firstError verdict ctx.scope r.trace) := by
  rw [Context.query_omitted]
  split
  · exact traced ctx
  · exact (traced (ctx.placed true ctx.inJoin)).finish fun source => ctx.enclose_stops _

theorem Expr.renderAll_stops {es : List Expr} (traced : ∀ e ∈ es, e.Traced links verdict) :
    Stops (Expr.renderAll links ctx es)
      (firstError verdict ctx.scope (Expr.traceOfAll es)) := by
  induction es with
  | nil => exact .pure _
  | cons e rest ih =>
      obtain ⟨head, tail⟩ := List.forall_mem_cons.mp traced
      rw [Expr.renderAll, Expr.traceOfAll, firstError_append]
      exact (head ctx).bind fun text => (ih tail).map

theorem Relation.renderAll_stops {rs : List Relation} (traced : ∀ r ∈ rs, r.Traced links verdict) :
    Stops (Relation.renderAll links ctx rs)
      (firstError verdict ctx.scope (Relation.traceOfAll rs)) := by
  induction rs with
  | nil => exact .pure _
  | cons r rest ih =>
      obtain ⟨head, tail⟩ := List.forall_mem_cons.mp traced
      rw [Relation.renderAll, Relation.traceOfAll, firstError_append]
      exact (head ctx).bind fun text => (ih tail).map

theorem Expr.renderBranches_stops {branches : List (BranchOf Expr)}
    (traced : ∀ b ∈ branches, b.condition.Traced links verdict ∧ b.result.Traced links verdict) :
    Stops (Expr.renderBranches links ctx branches)
      (firstError verdict ctx.scope (Expr.traceOfBranches branches)) := by
  induction branches with
  | nil => exact .pure _
  | cons branch rest ih =>
      obtain ⟨head, tail⟩ := List.forall_mem_cons.mp traced
      rw [Expr.renderBranches, Expr.traceOfBranches, firstError_append, firstError_append]
      apply (head.1 ctx).bind
      intro condition
      apply (head.2 ctx).bind
      intro result
      exact (ih tail).map

theorem Expr.renderElse_stops {otherwise : Option Expr}
    (traced : ∀ e, otherwise = some e → e.Traced links verdict) :
    Stops (Expr.renderElse links ctx otherwise)
      (firstError verdict ctx.scope (Expr.traceOfElse otherwise)) := by
  cases otherwise with
  | none => exact .pure _
  | some e => exact (traced e rfl ctx).map

theorem Expr.renderSelected_stops {columns : Option (List Expr)}
    (traced : ∀ es, columns = some es → ∀ e ∈ es, e.Traced links verdict) :
    Stops (Expr.renderSelected links ctx columns)
      (firstError verdict ctx.scope (Expr.traceOfOptional columns)) := by
  cases columns with
  | none => exact .pure _
  | some es => exact Expr.renderAll_stops ctx (traced es rfl)

theorem Expr.renderJoined_stops {columns : Option (List Expr)}
    (traced : ∀ es, columns = some es → ∀ e ∈ es, e.Traced links verdict) :
    Stops (Expr.renderJoined links ctx columns)
      (firstError verdict ctx.scope (Expr.traceOfOptional columns)) := by
  cases columns with
  | none => exact .pure _
  | some es => exact (Expr.renderAll_stops ctx (traced es rfl)).map

theorem Relation.renderFrom_stops {source : Option Relation}
    (traced : ∀ r, source = some r → r.Traced links verdict) :
    Stops (Relation.renderFrom links ctx source)
      (firstError verdict ctx.scope (Relation.traceOfOptional source)) := by
  cases source with
  | none => exact .pure _
  | some r => exact (traced r rfl ctx).map

theorem Expr.length_renderAll {es : List Expr} {texts : List String} {draft final : Draft}
    (written : (Expr.renderAll links ctx es).outcome draft = (.ok texts, final)) :
    texts.length = es.length := by
  induction es generalizing draft texts with
  | nil =>
      cases written
      rfl
  | cons e rest ih =>
      rw [Expr.renderAll] at written
      obtain ⟨text, middle, _, written⟩ := ExceptT.outcome_bind_eq_ok.mp written
      obtain ⟨others, last, others_written, result⟩ := ExceptT.outcome_bind_eq_ok.mp written
      cases result
      rw [List.length_cons, List.length_cons, ih others_written]

end

theorem Relation.select_traced {links : Links} {verdict : Verdict} {s : Select}
    (parts : s.Parts (Expr.Traced links verdict) (Relation.Traced links verdict)) :
    (Relation.select s).Traced links verdict := by
  intro ctx
  simp only [Relation.render_select, Relation.trace_select, firstError_append]
  exact (selectText_stops
    (Expr.renderSelected_stops (ctx.placed true ctx.inJoin) parts.columns)
    (Relation.renderFrom_stops (ctx.placed true ctx.inJoin) parts.table)
    (Expr.renderAll_stops (ctx.placed true ctx.inJoin) parts.filters)
    (Expr.renderAll_stops (ctx.placed true ctx.inJoin) parts.groupBy)
    (Expr.renderAll_stops (ctx.placed true ctx.inJoin) parts.having)
    (Expr.renderAll_stops (ctx.placed true ctx.inJoin) parts.orderBy)).finish ctx.enclose_stops

theorem Relation.join_traced {links : Links} {verdict : Verdict} {id : RelationId}
    {sources : List Relation} {kind : JoinKind} {on : List Expr} {columns : Option (List Expr)}
    (sourcesTraced : ∀ r ∈ sources, r.Traced links verdict)
    (onTraced : ∀ e ∈ on, e.Traced links verdict)
    (columnsTraced : ∀ es, columns = some es → ∀ e ∈ es, e.Traced links verdict) :
    (Relation.join ⟨id, sources, kind, on, columns⟩).Traced links verdict := by
  intro ctx
  rw [Relation.render_join, Relation.trace, firstError_within]
  apply (joinAliases_stops sources).after
  intro draft aliases middle named
  have scope : (ctx.joined aliases).scope = ctx.scope ++ joinScope sources := by
    rw [Context.scope_joined, scope_of_joinAliases named]
  rw [← scope, firstError_append, firstError_append]
  apply (Relation.renderAll_stops (ctx.joined aliases) sourcesTraced).bind
  intro texts
  apply (Expr.renderAll_stops (ctx.joined aliases) onTraced).bind
  intro onTexts
  apply (Expr.renderJoined_stops (ctx.joined aliases) columnsTraced).finish
  intro columnTexts
  exact ctx.enclose_stops _

theorem Relation.grouping_traced {links : Links} {verdict : Verdict} {id : RelationId}
    {table : Relation} {keys values having : List Expr} (tableTraced : table.Traced links verdict)
    (parts : ∀ s, table = .select s →
      s.Parts (Expr.Traced links verdict) (Relation.Traced links verdict))
    (keysTraced : ∀ e ∈ keys, e.Traced links verdict)
    (valuesTraced : ∀ e ∈ values, e.Traced links verdict)
    (havingTraced : ∀ e ∈ having, e.Traced links verdict) :
    (Relation.grouping ⟨id, table, keys, values, having⟩).Traced links verdict := by
  intro ctx
  rcases table.plain_or_nested with ⟨s, rfl, plain⟩ | nested
  · have selectParts := parts s rfl
    let inner := ctx.placed true ctx.inJoin
    have columns : Stops (do
        return (← Expr.renderAll links inner keys) ++ (← Expr.renderAll links inner values))
        ((firstError verdict inner.scope (Expr.traceOfAll keys)).or
          (firstError verdict inner.scope (Expr.traceOfAll values))) := by
      apply (Expr.renderAll_stops inner keysTraced).bind
      intro keyTexts
      exact (Expr.renderAll_stops inner valuesTraced).map
    rw [Relation.render_grouping_plain links ctx id s keys values having plain,
      Relation.trace_grouping_plain id s keys values having plain]
    simp only [firstError_append]
    rw [← Option.or_assoc]
    exact (selectText_stops columns (Relation.renderFrom_stops inner selectParts.table)
      (Expr.renderAll_stops inner selectParts.filters) (.pure _)
      (Expr.renderAll_stops inner havingTraced)
      (Expr.renderAll_stops inner selectParts.orderBy)).finish ctx.enclose_stops
  · rw [Relation.render_grouping_nested links ctx id table keys values having nested,
      Relation.trace_grouping_nested id table keys values having nested]
    simp only [firstError_append]
    apply (Expr.renderAll_stops ctx keysTraced).bind
    intro keyTexts
    apply (Expr.renderAll_stops ctx valuesTraced).bind
    intro valueTexts
    apply (tableTraced (ctx.placed true false)).bind
    intro source
    apply (Expr.renderAll_stops ctx havingTraced).finish
    intro havingTexts
    exact ctx.enclose_stops _

theorem Links.Traced.induction {links : Links} {verdict : Verdict} (linked : links.Traced verdict) :
    QueryInduction (Expr.Traced links verdict) (Relation.Traced links verdict) where
  value v ctx := .pure _
  code sql ctx := .pure _
  column c ctx := by
    obtain ⟨source, name⟩ := c
    rw [Expr.trace, firstError_singleton, linked.column]
    exact ctx.column_stops source.id name
  placeholder id name ctx := by
    rw [Expr.trace, firstError_singleton]
    exact linked.placeholder id name ctx
  aliased e name traced ctx := by
    rw [Expr.render, Expr.trace]
    exact (traced ctx).map
  concat items separator traced ctx := by
    rw [Expr.render, Expr.trace]
    cases items with
    | nil =>
        rw [List.isEmpty_nil, if_pos rfl, firstError_singleton, linked.stop]
        exact .throw _
    | cons e rest =>
        rw [List.isEmpty_cons, if_neg Bool.false_ne_true, ← Option.or_none (o := firstError _ _ _)]
        apply (Expr.renderAll_stops ctx traced).bind_of_outcome
        intro draft texts middle written
        have length := Expr.length_renderAll ctx written
        apply concatText_stops
        rintro rfl
        cases length
  countAll distinct ctx := .pure _
  count e distinct traced ctx := by
    rw [Expr.render_count, Expr.trace]
    exact (traced ctx).map
  call function arguments traced ctx := by
    rw [Expr.render, Expr.trace]
    exact (Expr.renderAll_stops ctx traced).map
  case branches otherwise branchesTraced otherwiseTraced ctx := by
    rw [Expr.render_case, Expr.trace]
    split
    · rw [firstError_singleton, linked.stop]
      exact .throw _
    · rw [firstError_append]
      apply (Expr.renderBranches_stops ctx branchesTraced).bind
      intro texts
      exact (Expr.renderElse_stops ctx otherwiseTraced).map
  isDistinctFrom left right leftTraced rightTraced ctx := by
    rw [Expr.render, Expr.trace, firstError_append]
    apply (leftTraced ctx).bind
    intro leftText
    exact (rightTraced ctx).map
  binary operator arguments traced ctx := by
    rw [Expr.render, Expr.trace]
    exact (Expr.renderAll_stops ctx traced).map
  negate e traced ctx := by
    rw [Expr.render, Expr.trace]
    exact (traced ctx).map
  isIn e list traced listTraced ctx := by
    rw [Expr.render, Expr.trace, firstError_append]
    apply (traced ctx).bind
    intro text
    exact (Expr.renderAll_stops ctx listTraced).map
  cast e type traced ctx := by
    rw [Expr.render, Expr.trace]
    exact (traced ctx).map
  random ctx := .pure _
  currentTimestamp ctx := .pure _
  param name ctx := by
    rw [Expr.trace, firstError_singleton]
    exact linked.param name ctx
  subquery r traced ctx := by
    rw [Expr.render, Expr.trace]
    exact (traced.query (ctx.placed false false)).map
  table t ctx := .pure _
  tableAlias id source name traced ctx := by
    rw [Relation.render, Relation.trace]
    exact (traced (ctx.placed false true)).map
  join id sources kind on columns sourcesTraced onTraced columnsTraced :=
    Relation.join_traced sourcesTraced onTraced columnsTraced
  grouping id table keys values having tableTraced parts keysTraced valuesTraced havingTraced :=
    Relation.grouping_traced tableTraced parts keysTraced valuesTraced havingTraced
  setOperation id operator left right leftTraced rightTraced ctx := by
    rw [Relation.render, Relation.trace, firstError_append]
    apply (leftTraced.query (ctx.placed false ctx.inJoin)).bind
    intro leftText
    apply (rightTraced.query (ctx.placed false ctx.inJoin)).finish
    intro rightText
    exact ctx.enclose_stops _
  select s parts := Relation.select_traced parts
  cte id source name params traced ctx := by
    rw [Relation.render_cte, Relation.trace, firstError_detach]
    apply (traced.query ctx.defining).finish
    intro body
    have named : Stops (definitionName name) none := by
      cases name with
      | none => exact .newName
      | some name => exact .pure _
    apply named.finish
    intro name
    exact (Stops.define _ _).map
  tableParam p ctx := by
    rw [Relation.trace, firstError_singleton]
    exact linked.tableParam p.name ctx

section

variable {links : Links} {verdict : Verdict}

theorem Node.render_stops (linked : links.Traced verdict) (node : Node) (ctx : Context) :
    Stops (node.render links ctx) (firstError verdict ctx.scope node.trace) := by
  cases node with
  | expr e => exact linked.induction.expr e ctx
  | relation r => exact linked.induction.relation r ctx
  | statement s =>
      cases s with
      | create s =>
          obtain ⟨⟨id, path, schema⟩, source, ifNotExists, primaryKeys⟩ := s
          rw [Node.render, Statement.render, CreateTable.render]
          cases source with
          | some source => exact (linked.induction.relation source ctx).map
          | none =>
              cases schema with
              | some schema => exact .pure _
              | none =>
                  rw [Node.trace, firstError_singleton, linked.stop]
                  exact .throw _
      | drop s => exact .pure _
      | truncate t => exact .pure _
      | insert s =>
          obtain ⟨table, source, columns⟩ := s
          rw [Node.render, Statement.render, Insert.render]
          cases source with
          | rows rows => exact .pure _
          | query r => exact (linked.induction.relation r ctx).map
      | commit => exact .pure _
      | explain query =>
          rw [Node.render, Statement.render]
          exact ((linked.induction.relation query).query ctx).map

theorem Node.renderRoot_stops (linked : links.Traced verdict) (node : Node) (ctx : Context) :
    Stops (node.renderRoot links ctx) (firstError verdict ctx.scope node.trace) := by
  cases node with
  | expr e =>
      by_cases code : ∃ sql, e = .code sql
      · obtain ⟨sql, rfl⟩ := code
        exact .pure _
      · rw [Node.renderRoot_expr _ _ fun sql same => code ⟨sql, same⟩]
        have column : Stops (do return [← e.render links (ctx.placed true ctx.inJoin)])
            (firstError verdict ctx.scope e.trace) :=
          (linked.induction.expr e (ctx.placed true ctx.inJoin)).map
        rw [← Option.or_none (o := firstError _ _ _)]
        exact (selectText_stops column (.pure _) (.pure _) (.pure _) (.pure _) (.pure _)).finish
          ctx.enclose_stops
  | relation r => exact (linked.induction.relation r).query ctx
  | statement s => exact Node.render_stops linked (.statement s) ctx

end

/-! Along a number of links. -/

def Mention.missing : Mention → String → Error
  | .placeholder _, name => .unresolved name
  | .param name, _ => .missingParam name
  | .tableParam name, _ => .missingParam name

namespace Settings

section

variable (store : Store) (settings : Settings)

/-- How events fail if the nodes behind placeholders and parameters fail in the given way. -/
def judge (inside : Scope → Node → Option Error) : Verdict
  | scope, .column owner name =>
      if 2 ≤ scope.covering owner then some (.tooManyAliases name) else none
  | scope, .link m name =>
      match settings.behind store m with
      | some node => inside scope node
      | none => some (m.missing name)
  | _, .stop e _ => some e

/-- The error of a node, written along fewer than the given number of links. -/
def failure : Nat → Scope → Node → Option Error
  | 0, _, _ => some .unending
  | depth + 1, scope, node => firstError (settings.judge store (failure depth)) scope node.trace

end

variable {store : Store} {settings : Settings}

theorem judge_link {inside : Scope → Node → Option Error} {m : Mention} {node : Node}
    (behind : settings.behind store m = some node) (scope : Scope) (name : String) :
    settings.judge store inside scope (.link m name) = inside scope node := by
  simp only [judge, behind]

theorem links_traced (depth : Nat) :
    (settings.links store depth).Traced (settings.judge store (settings.failure store depth)) := by
  induction depth with
  | zero =>
      have given : ∀ name ctx, Stops ((settings.links store 0).param name ctx)
          (match settings.params.bind (·.lookup name) with
            | some _ => some .unending
            | none => some (.missingParam name)) := by
        intro name ctx
        simp only [links, param]
        cases settings.params.bind (·.lookup name) with
        | none => exact .throw _
        | some node => exact .throw _
      refine ⟨?_, given, given, fun _ _ _ => rfl, fun _ _ _ => rfl⟩
      intro id name ctx
      simp only [links, Store.resolve, judge, behind]
      cases store.binding? id with
      | none => exact .throw _
      | some e => exact .throw _
  | succ depth ih =>
      have given : ∀ name (ctx : Context), Stops ((settings.links store (depth + 1)).param name ctx)
          (match settings.params.bind (·.lookup name) with
            | some node => settings.failure store (depth + 1) ctx.scope node
            | none => some (.missingParam name)) := by
        intro name ctx
        simp only [links, param]
        cases settings.params.bind (·.lookup name) with
        | none => exact .throw _
        | some node => exact Node.render_stops ih node ctx
      refine ⟨?_, given, given, fun _ _ _ => rfl, fun _ _ _ => rfl⟩
      intro id name ctx
      simp only [links, Store.resolve, judge, behind]
      cases store.binding? id with
      | none => exact .throw _
      | some e => exact Node.render_stops ih (.expr e) ctx

end Settings

theorem Node.compileWithin_eq_error_iff_failure {depth : Nat} {store : Store} {settings : Settings}
    {node : Node} {e : Error} :
    node.compileWithin depth store settings = .error e ↔
      settings.failure store (depth + 1) [] node = some e := by
  have traced : (settings.links store depth).Traced
      (settings.judge store (settings.failure store depth)) := Settings.links_traced depth
  have stops := Node.renderRoot_stops traced node settings.context {}
  change _ = settings.failure store (depth + 1) [] node at stops
  rw [Node.compileWithin_eq, ← stops]
  rcases (node.renderRoot (settings.links store depth) settings.context).outcome {} with
    ⟨e' | body, draft⟩
  · simp
  · simp

end SqlQuery
