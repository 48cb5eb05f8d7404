import SqlQuery.Proofs.Builder.Identity
import SqlQuery.Proofs.Render.Termination

/-!
Identities that are drawn while a text is written. A generated alias owns its source and has an
identity of its own, and a column that belonged to that identity would be written after the alias
too. None does as long as every identity in use was given out before: then the text is the same as
without identities for what is made on the way.
-/

namespace SqlQuery

/-- The relation got its identity before the given one was next. -/
def Relation.Before (bound : Nat) (r : Relation) : Prop :=
  r.id.number < bound

/-! What is left of aliases and drafts without the identities from a bound on. -/

def ScopedAlias.before (bound : Nat) (a : ScopedAlias) : ScopedAlias :=
  { a with owners := a.owners.filter (·.number < bound) }

def Context.before (bound : Nat) (ctx : Context) : Context :=
  { ctx with aliases := ctx.aliases.map (ScopedAlias.before bound) }

def Draft.undrawn (draft : Draft) : Draft :=
  { draft with relations := 0 }

variable {bound : Nat}

theorem Context.before_joined (ctx : Context) (aliases : List ScopedAlias) :
    (ctx.joined aliases).before bound =
      (ctx.before bound).joined (aliases.map (ScopedAlias.before bound)) := by
  simp only [joined, before, placed, List.map_append]

theorem Context.column_before (ctx : Context) {owner : RelationId} (old : owner.number < bound)
    (name : String) : (ctx.before bound).column owner name = ctx.column owner name := by
  have owning : ScopedAlias.owning (ctx.aliases.map (ScopedAlias.before bound)) owner =
      (ScopedAlias.owning ctx.aliases owner).map (ScopedAlias.before bound) := by
    rw [ScopedAlias.owning, ScopedAlias.owning, List.filter_map]
    congr 1
    apply List.filter_congr
    intro a _
    simp [ScopedAlias.before, old]
  rw [column_eq_columnAfter, column_eq_columnAfter, ScopedAlias.candidates,
    ScopedAlias.candidates]
  change columnAfter _ name (if (ctx.aliases.map _).length ≤ 1 then [] else _) = _
  rw [List.length_map]
  change columnAfter _ name (if _ then [] else ScopedAlias.owning (ctx.aliases.map _) owner) = _
  rw [owning]
  split
  · rfl
  · rcases ScopedAlias.owning ctx.aliases owner with _ | ⟨_, _ | ⟨_, _⟩⟩
    · rfl
    · rfl
    · rfl

/-! Steps with and without identities. -/

/-- From a draft with only identities from the bound on to draw, the first step comes to what the
second one comes to without them. -/
def Rendering.Mirrors {α β : Type} (bound : Nat) (f : α → β) (x : Rendering α)
    (y : Rendering β) : Prop :=
  ∀ draft, bound ≤ draft.relations →
    bound ≤ (x.outcome draft).2.relations ∧
      y.outcome draft.undrawn = ((x.outcome draft).1.map f, (x.outcome draft).2.undrawn)

/-- What comes out is the same with identities and without. -/
abbrev Rendering.Repeats {α : Type} (bound : Nat) (x y : Rendering α) : Prop :=
  Mirrors bound (fun a => a) x y

namespace Rendering.Mirrors

variable {α β γ δ : Type} {f : α → β} {x : Rendering α} {y : Rendering β}

theorem pure {a : α} {b : β} (same : f a = b) :
    Mirrors bound f (Pure.pure a) (Pure.pure b) := by
  subst same
  exact fun _ new => ⟨new, rfl⟩

theorem throw (e : Error) :
    Mirrors bound f (MonadExcept.throw e) (MonadExcept.throw e) :=
  fun _ new => ⟨new, rfl⟩

theorem lift (result : Except Error α) :
    Repeats bound (liftM result : Rendering α) (liftM result) := by
  intro draft new
  cases result with
  | error e => exact ⟨new, rfl⟩
  | ok a => exact ⟨new, rfl⟩

theorem newName : Repeats bound Rendering.newName Rendering.newName :=
  fun _ new => ⟨new, rfl⟩

theorem define (head body : String) :
    Repeats bound (Rendering.define head body) (Rendering.define head body) :=
  fun _ new => ⟨new, rfl⟩

theorem bind {g : γ → δ} {k : α → Rendering γ} {l : β → Rendering δ} (first : Mirrors bound f x y)
    (rest : ∀ a, Mirrors bound g (k a) (l (f a))) : Mirrors bound g (x >>= k) (y >>= l) := by
  intro draft new
  obtain ⟨newAfter, same⟩ := first draft new
  rcases outcome : x.outcome draft with ⟨e | a, middle⟩
  · rw [outcome] at newAfter same
    rw [ExceptT.outcome_bind_of_error outcome, ExceptT.outcome_bind_of_error same]
    exact ⟨newAfter, rfl⟩
  · rw [outcome] at newAfter same
    rw [ExceptT.outcome_bind_of_ok outcome, ExceptT.outcome_bind_of_ok same]
    exact rest a middle newAfter

/-- A text is written, and what comes next depends on it in the same way. -/
theorem each {x y : Rendering α} {g : γ → δ} {k : α → Rendering γ} {l : α → Rendering δ}
    (first : Repeats bound x y) (rest : ∀ a, Mirrors bound g (k a) (l a)) :
    Mirrors bound g (x >>= k) (y >>= l) :=
  first.bind rest

theorem map {x y : Rendering α} (first : Repeats bound x y) (g : α → γ) :
    Repeats bound (do return g (← x)) (do return g (← y)) :=
  first.each fun _ => pure rfl

theorem draw {k : List RelationId → Rendering α}
    (rest : ∀ own : RelationId, bound ≤ own.number → Mirrors bound f (k [own]) y) :
    Mirrors bound f (Rendering.draw .drawn >>= k) y := by
  intro draft new
  exact rest ⟨draft.relations⟩ new { draft with relations := draft.relations + 1 }
    (Nat.le_succ_of_le new)

theorem after_draw (mirrors : Mirrors bound f x y) :
    Mirrors bound f (do discard (Rendering.draw .drawn); x) y := by
  rw [ExceptT.discard_eq_bind, bind_assoc]
  exact draw fun _ _ => mirrors

theorem enclose (ctx : Context) (sql : String) :
    Repeats bound (ctx.enclose sql) ((ctx.before bound).enclose sql) := by
  change Repeats bound (ctx.enclose sql) (ctx.enclose sql)
  rw [Context.enclose]
  split
  · exact newName.map _
  · split
    · exact pure rfl
    · exact pure rfl

end Rendering.Mirrors

/-! Aliases and joins. -/

theorem Relation.owned_before {r : Relation} (old : r.HoldsOnly (Relation.Before bound)) :
    r.owned.filter (·.number < bound) = r.owned := by
  have itself : r.id.number < bound := old r (.self r)
  cases r with
  | aliased a =>
      have source : a.source.id.number < bound :=
        old a.source (.source (List.mem_singleton_self _) (.self _))
      have own : a.id.number < bound := itself
      simp [Relation.owned, own, source]
  | _ => simpa [Relation.owned] using itself

theorem sourceAlias_mirrors {r : Relation} (old : r.HoldsOnly (Relation.Before bound)) :
    Rendering.Mirrors bound (ScopedAlias.before bound) (sourceAlias r .drawn) (sourceAlias r) := by
  have owned := Relation.owned_before old
  have generated : r.owned = [r.id] →
      Rendering.Mirrors bound (ScopedAlias.before bound)
        (do
          let name ← Rendering.newName
          return ⟨name, (← Rendering.draw .drawn) ++ [r.id]⟩)
        (do return ⟨← Rendering.newName, [r.id]⟩) := by
    intro single
    rw [single] at owned
    apply Rendering.Mirrors.newName.each
    intro name
    apply Rendering.Mirrors.draw
    intro own new
    apply Rendering.Mirrors.pure
    simp [ScopedAlias.before, Nat.not_lt_of_le new, owned]
  cases r with
  | aliased a => exact .pure (congrArg (ScopedAlias.mk a.name) owned)
  | _ => exact generated rfl

theorem joinAliases_mirrors {sources : List Relation}
    (old : ∀ r ∈ sources, r.HoldsOnly (Relation.Before bound)) :
    Rendering.Mirrors bound (List.map (ScopedAlias.before bound)) (joinAliases sources .drawn)
      (joinAliases sources) := by
  induction sources with
  | nil => exact .pure rfl
  | cons r rest ih =>
      obtain ⟨here, later⟩ := List.forall_mem_cons.mp old
      rw [joinAliases_cons, joinAliases_cons]
      apply (sourceAlias_mirrors here).bind
      intro first
      apply (ih later).bind
      intro others
      exact .pure rfl

theorem joinText_before (ctx : Context) (kind : JoinKind) (sources : List Relation)
    (aliases : List ScopedAlias) (texts on : List String) (columns : String) :
    joinText (ctx.before bound) kind sources (aliases.map (ScopedAlias.before bound)) texts on
        columns =
      joinText ctx kind sources aliases texts on columns := by
  have items : (sources.zip (aliases.map (ScopedAlias.before bound))).zipWith
        (aliasedSource (ctx.before bound)) texts =
      (sources.zip aliases).zipWith (aliasedSource ctx) texts := by
    rw [List.zip_map_right, List.zipWith_map_left]
    congr 1
    funext pair text
    obtain ⟨r, a⟩ := pair
    cases r <;> rfl
  rw [joinText, joinText, items]

/-! Parts of a query. -/

section

variable (bound : Nat) (drawing links : Links)

def Expr.Mirrors (e : Expr) : Prop :=
  e.HoldsOnly (Relation.Before bound) → ∀ ctx, Rendering.Repeats bound
    (e.render drawing ctx .drawn) (e.render links (ctx.before bound))

def Relation.Mirrors (r : Relation) : Prop :=
  r.HoldsOnly (Relation.Before bound) → ∀ ctx, Rendering.Repeats bound
    (r.render drawing ctx .drawn) (r.render links (ctx.before bound))

/-- What is behind placeholders and parameters is the same with identities and without. -/
def Links.Mirrors : Prop :=
  ∀ name m ctx, Rendering.Repeats bound (drawing.follow name m ctx)
    (links.follow name m (ctx.before bound))

end

variable {drawing links : Links}

theorem Relation.Mirrors.query {r : Relation} (mirrors : r.Mirrors bound drawing links)
    (old : r.HoldsOnly (Relation.Before bound)) (ctx : Context) :
    Rendering.Repeats bound
      (ctx.query r (fun ctx => r.render drawing ctx .drawn) .drawn)
      ((ctx.before bound).query r fun ctx => r.render links ctx) := by
  rw [Context.query, Context.query_omitted]
  split
  · exact mirrors old ctx
  · apply Rendering.Mirrors.after_draw
    apply (mirrors old (ctx.placed true ctx.inJoin)).each
    intro source
    exact .enclose ctx _

theorem Expr.renderAll_mirrors {es : List Expr}
    (mirror : ∀ e ∈ es, e.Mirrors bound drawing links)
    (old : ∀ e ∈ es, e.HoldsOnly (Relation.Before bound)) (ctx : Context) :
    Rendering.Repeats bound (Expr.renderAll drawing ctx es .drawn)
      (Expr.renderAll links (ctx.before bound) es) := by
  induction es with
  | nil => exact .pure rfl
  | cons e rest ih =>
      obtain ⟨here, later⟩ := List.forall_mem_cons.mp mirror
      obtain ⟨oldHere, oldLater⟩ := List.forall_mem_cons.mp old
      rw [Expr.renderAll, Expr.renderAll]
      apply (here oldHere ctx).each
      intro text
      exact (ih later oldLater).map _

theorem Relation.renderAll_mirrors {rs : List Relation}
    (mirror : ∀ r ∈ rs, r.Mirrors bound drawing links)
    (old : ∀ r ∈ rs, r.HoldsOnly (Relation.Before bound)) (ctx : Context) :
    Rendering.Repeats bound (Relation.renderAll drawing ctx rs .drawn)
      (Relation.renderAll links (ctx.before bound) rs) := by
  induction rs with
  | nil => exact .pure rfl
  | cons r rest ih =>
      obtain ⟨here, later⟩ := List.forall_mem_cons.mp mirror
      obtain ⟨oldHere, oldLater⟩ := List.forall_mem_cons.mp old
      rw [Relation.renderAll, Relation.renderAll]
      apply (here oldHere ctx).each
      intro text
      exact (ih later oldLater).map _

theorem Expr.renderBranches_mirrors {branches : List (BranchOf Expr)}
    (mirror : ∀ b ∈ branches, b.condition.Mirrors bound drawing links ∧
      b.result.Mirrors bound drawing links)
    (old : ∀ b ∈ branches, b.condition.HoldsOnly (Relation.Before bound) ∧
      b.result.HoldsOnly (Relation.Before bound)) (ctx : Context) :
    Rendering.Repeats bound (Expr.renderBranches drawing ctx branches .drawn)
      (Expr.renderBranches links (ctx.before bound) branches) := by
  induction branches with
  | nil => exact .pure rfl
  | cons branch rest ih =>
      obtain ⟨⟨condition, result⟩, later⟩ := List.forall_mem_cons.mp mirror
      obtain ⟨⟨oldCondition, oldResult⟩, oldLater⟩ := List.forall_mem_cons.mp old
      rw [Expr.renderBranches, Expr.renderBranches]
      apply (condition oldCondition ctx).each
      intro conditionText
      apply (result oldResult ctx).each
      intro resultText
      exact (ih later oldLater).map _

theorem Expr.renderElse_mirrors {otherwise : Option Expr}
    (mirror : ∀ e, otherwise = some e → e.Mirrors bound drawing links)
    (old : ∀ e ∈ otherwise.toList, e.HoldsOnly (Relation.Before bound)) (ctx : Context) :
    Rendering.Repeats bound (Expr.renderElse drawing ctx otherwise .drawn)
      (Expr.renderElse links (ctx.before bound) otherwise) := by
  cases otherwise with
  | none => exact .pure rfl
  | some e => exact (mirror e rfl (old e (List.mem_singleton_self e)) ctx).map _

theorem Expr.renderSelected_mirrors {columns : Option (List Expr)}
    (mirror : ∀ es, columns = some es → ∀ e ∈ es, e.Mirrors bound drawing links)
    (old : ∀ e ∈ columns.getD [], e.HoldsOnly (Relation.Before bound)) (ctx : Context) :
    Rendering.Repeats bound (Expr.renderSelected drawing ctx columns .drawn)
      (Expr.renderSelected links (ctx.before bound) columns) := by
  cases columns with
  | none => exact .pure rfl
  | some es => exact Expr.renderAll_mirrors (mirror es rfl) old ctx

theorem Expr.renderJoined_mirrors {columns : Option (List Expr)}
    (mirror : ∀ es, columns = some es → ∀ e ∈ es, e.Mirrors bound drawing links)
    (old : ∀ e ∈ columns.getD [], e.HoldsOnly (Relation.Before bound)) (ctx : Context) :
    Rendering.Repeats bound (Expr.renderJoined drawing ctx columns .drawn)
      (Expr.renderJoined links (ctx.before bound) columns) := by
  cases columns with
  | none => exact .pure rfl
  | some es => exact (Expr.renderAll_mirrors (mirror es rfl) old ctx).map _

theorem Relation.renderFrom_mirrors {source : Option Relation}
    (mirror : ∀ r, source = some r → r.Mirrors bound drawing links)
    (old : ∀ r ∈ source.toList, r.HoldsOnly (Relation.Before bound)) (ctx : Context) :
    Rendering.Repeats bound (Relation.renderFrom drawing ctx source .drawn)
      (Relation.renderFrom links (ctx.before bound) source) := by
  cases source with
  | none => exact .pure rfl
  | some r => exact (mirror r rfl (old r (List.mem_singleton_self r)) ctx).map _

theorem selectText_mirrors {dialect : Dialect} {distinct : Bool} {limit : Option UInt64}
    {columns columns' filters filters' groupBy groupBy' having having' orderBy orderBy' :
      Rendering (List String)}
    {source source' : Rendering (Option String)}
    (inColumns : Rendering.Repeats bound columns columns')
    (inSource : Rendering.Repeats bound source source')
    (inFilters : Rendering.Repeats bound filters filters')
    (inGroupBy : Rendering.Repeats bound groupBy groupBy')
    (inHaving : Rendering.Repeats bound having having')
    (inOrderBy : Rendering.Repeats bound orderBy orderBy') :
    Rendering.Repeats bound
      (selectText dialect distinct limit columns source filters groupBy having orderBy)
      (selectText dialect distinct limit columns' source' filters' groupBy' having' orderBy') := by
  apply inColumns.each
  intro columnTexts
  apply inSource.each
  intro sourceText
  apply inFilters.each
  intro filterTexts
  apply inGroupBy.each
  intro groupByTexts
  apply inHaving.each
  intro havingTexts
  exact inOrderBy.map _

/-! Whole queries. -/

theorem Relation.select_mirrors {s : Select}
    (parts : s.Parts (Expr.Mirrors bound drawing links) (Relation.Mirrors bound drawing links)) :
    (Relation.select s).Mirrors bound drawing links := by
  intro old ctx
  have exprs := old.exprs
  simp only [Relation.exprs, SelectOf.exprs, List.forall_mem_append] at exprs
  obtain ⟨⟨⟨⟨columns, filters⟩, groupBy⟩, having⟩, orderBy⟩ := exprs
  rw [Relation.render_select, Relation.render_select]
  let inner := ctx.placed true ctx.inJoin
  refine (selectText_mirrors (Expr.renderSelected_mirrors parts.columns columns inner)
    (Relation.renderFrom_mirrors parts.table old.sources inner)
    (Expr.renderAll_mirrors parts.filters filters inner)
    (Expr.renderAll_mirrors parts.groupBy groupBy inner)
    (Expr.renderAll_mirrors parts.having having inner)
    (Expr.renderAll_mirrors parts.orderBy orderBy inner)).each ?_
  intro sql
  exact .enclose ctx sql

theorem Relation.join_mirrors {id : RelationId} {sources : List Relation} {kind : JoinKind}
    {on : List Expr} {columns : Option (List Expr)}
    (inSources : ∀ r ∈ sources, r.Mirrors bound drawing links)
    (inOn : ∀ e ∈ on, e.Mirrors bound drawing links)
    (inColumns : ∀ es, columns = some es → ∀ e ∈ es, e.Mirrors bound drawing links) :
    (Relation.join ⟨id, sources, kind, on, columns⟩).Mirrors bound drawing links := by
  intro old ctx
  have exprs := old.exprs
  simp only [Relation.exprs, List.forall_mem_append] at exprs
  obtain ⟨oldOn, oldColumns⟩ := exprs
  rw [Relation.render_join, Relation.render_join]
  apply (joinAliases_mirrors old.sources).bind
  intro aliases
  rw [← Context.before_joined]
  apply (Relation.renderAll_mirrors inSources old.sources (ctx.joined aliases)).each
  intro texts
  apply (Expr.renderAll_mirrors inOn oldOn (ctx.joined aliases)).each
  intro onTexts
  apply (Expr.renderJoined_mirrors inColumns oldColumns (ctx.joined aliases)).each
  intro columnTexts
  rw [joinText_before]
  exact .enclose ctx _

theorem Relation.grouping_mirrors {id : RelationId} {table : Relation}
    {keys values having : List Expr} (inTable : table.Mirrors bound drawing links)
    (parts : ∀ s, table = .select s →
      s.Parts (Expr.Mirrors bound drawing links) (Relation.Mirrors bound drawing links))
    (inKeys : ∀ e ∈ keys, e.Mirrors bound drawing links)
    (inValues : ∀ e ∈ values, e.Mirrors bound drawing links)
    (inHaving : ∀ e ∈ having, e.Mirrors bound drawing links) :
    (Relation.grouping ⟨id, table, keys, values, having⟩).Mirrors bound drawing links := by
  intro old ctx
  have exprs := old.exprs
  simp only [Relation.exprs, List.forall_mem_append] at exprs
  obtain ⟨⟨oldKeys, oldValues⟩, oldHaving⟩ := exprs
  have oldTable := old.sources table (List.mem_singleton_self table)
  rcases table.plain_or_nested with ⟨s, rfl, plain⟩ | nested
  · have selectParts := parts s rfl
    have selectExprs := oldTable.exprs
    simp only [Relation.exprs, SelectOf.exprs, List.forall_mem_append] at selectExprs
    obtain ⟨⟨⟨⟨_, filters⟩, _⟩, _⟩, orderBy⟩ := selectExprs
    rw [Relation.render_grouping_merged _ _ _ _ _ _ _ plain,
      Relation.render_grouping_plain _ _ _ _ _ _ _ plain]
    let inner := ctx.placed true ctx.inJoin
    have columns : Rendering.Repeats bound
        (do return (← Expr.renderAll drawing inner keys .drawn) ++
          (← Expr.renderAll drawing inner values .drawn))
        (do return (← Expr.renderAll links (inner.before bound) keys) ++
          (← Expr.renderAll links (inner.before bound) values)) := by
      apply (Expr.renderAll_mirrors inKeys oldKeys inner).each
      intro keyTexts
      exact (Expr.renderAll_mirrors inValues oldValues inner).map _
    apply Rendering.Mirrors.after_draw
    refine (selectText_mirrors columns
      (Relation.renderFrom_mirrors selectParts.table oldTable.sources inner)
      (Expr.renderAll_mirrors selectParts.filters filters inner) (.pure rfl)
      (Expr.renderAll_mirrors inHaving oldHaving inner)
      (Expr.renderAll_mirrors selectParts.orderBy orderBy inner)).each ?_
    intro sql
    exact .enclose ctx sql
  · rw [Relation.render_grouping_nested _ _ _ _ _ _ _ nested,
      Relation.render_grouping_nested _ _ _ _ _ _ _ nested]
    apply (Expr.renderAll_mirrors inKeys oldKeys ctx).each
    intro keyTexts
    apply (Expr.renderAll_mirrors inValues oldValues ctx).each
    intro valueTexts
    apply (inTable oldTable (ctx.placed true false)).each
    intro source
    apply (Expr.renderAll_mirrors inHaving oldHaving ctx).each
    intro havingTexts
    exact .enclose ctx _

theorem definitionName_mirrors (name : Option String) :
    Rendering.Repeats bound (definitionName name) (definitionName name) := by
  cases name with
  | none => exact .newName
  | some name => exact .pure rfl

theorem Links.Mirrors.induction (linked : drawing.Mirrors bound links) :
    QueryInduction (Expr.Mirrors bound drawing links) (Relation.Mirrors bound drawing links) where
  value v _ ctx := .pure rfl
  code sql _ ctx := .pure rfl
  column c old ctx := by
    obtain ⟨source, name⟩ := c
    have column := ctx.column_before old.owner name
    rw [Expr.render, Expr.render]
    rw [column]
    exact .lift _
  placeholder id name _ ctx := linked name (.placeholder id) ctx
  aliased e name inner old ctx := by
    rw [Expr.render, Expr.render]
    exact (inner (old.children e (List.mem_singleton_self e)) ctx).map _
  concat items separator inner old ctx := by
    rw [Expr.render, Expr.render]
    apply (Expr.renderAll_mirrors inner old.children ctx).each
    intro texts
    exact .lift _
  countAll distinct _ ctx := .pure rfl
  count e distinct inner old ctx := by
    rw [Expr.render_count, Expr.render_count]
    exact (inner (old.children e (List.mem_singleton_self e)) ctx).map _
  call function arguments inner old ctx := by
    rw [Expr.render, Expr.render]
    exact (Expr.renderAll_mirrors inner old.children ctx).map _
  case branches otherwise inBranches inElse old ctx := by
    have children := old.children
    simp only [Expr.children, List.forall_mem_append, List.forall_mem_flatMap,
      List.forall_mem_cons] at children
    obtain ⟨oldBranches, oldElse⟩ := children
    rw [Expr.render_case, Expr.render_case]
    split
    · exact .throw _
    · apply (Expr.renderBranches_mirrors inBranches
        (fun b listed => ⟨(oldBranches b listed).1, (oldBranches b listed).2.1⟩) ctx).each
      intro branchTexts
      exact (Expr.renderElse_mirrors inElse oldElse ctx).map _
  isDistinctFrom left right inLeft inRight old ctx := by
    have children := old.children
    simp only [Expr.children, List.forall_mem_cons] at children
    obtain ⟨oldLeft, oldRight, _⟩ := children
    rw [Expr.render, Expr.render]
    apply (inLeft oldLeft ctx).each
    intro leftText
    exact (inRight oldRight ctx).map _
  binary operator arguments inner old ctx := by
    rw [Expr.render, Expr.render]
    exact (Expr.renderAll_mirrors inner old.children ctx).map _
  negate e inner old ctx := by
    rw [Expr.render, Expr.render]
    exact (inner (old.children e (List.mem_singleton_self e)) ctx).map _
  isIn e list inner inList old ctx := by
    have children := old.children
    simp only [Expr.children, List.forall_mem_cons] at children
    obtain ⟨oldOperand, oldList⟩ := children
    rw [Expr.render, Expr.render]
    apply (inner oldOperand ctx).each
    intro text
    exact (Expr.renderAll_mirrors inList oldList ctx).map _
  cast e type inner old ctx := by
    rw [Expr.render, Expr.render]
    exact (inner (old.children e (List.mem_singleton_self e)) ctx).map _
  random _ ctx := .pure rfl
  currentTimestamp _ ctx := .pure rfl
  param name _ ctx := linked name (.param name) ctx
  subquery r inner old ctx := by
    rw [Expr.render, Expr.render]
    exact (inner.query old.subquery (ctx.placed false false)).map _
  table t _ ctx := .pure rfl
  tableAlias id source name inner old ctx := by
    rw [Relation.render, Relation.render]
    exact (inner (old.sources source (List.mem_singleton_self source))
      (ctx.placed false true)).map _
  join id sources kind on columns := Relation.join_mirrors
  grouping id table keys values having := Relation.grouping_mirrors
  setOperation id operator left right inLeft inRight old ctx := by
    have sources := old.sources
    simp only [Relation.sources, List.forall_mem_cons] at sources
    obtain ⟨oldLeft, oldRight, _⟩ := sources
    rw [Relation.render, Relation.render]
    apply (inLeft.query oldLeft (ctx.placed false ctx.inJoin)).each
    intro leftText
    apply (inRight.query oldRight (ctx.placed false ctx.inJoin)).each
    intro rightText
    exact .enclose ctx _
  select s := Relation.select_mirrors
  cte id source name params inner old ctx := by
    rw [Relation.render_cte, Relation.render_cte]
    apply (inner.query (old.sources source (List.mem_singleton_self source)) ctx.defining).each
    intro body
    apply (definitionName_mirrors name).each
    intro name
    exact (Rendering.Mirrors.define _ _).map _
  tableParam p _ ctx := linked p.name (.tableParam p.name) ctx

section

variable (linked : drawing.Mirrors bound links)

include linked

theorem Statement.render_repeats {s : Statement}
    (old : ∀ r ∈ s.sources, r.HoldsOnly (Relation.Before bound)) (ctx : Context) :
    Rendering.Repeats bound (s.render drawing ctx .drawn)
      (s.render links (ctx.before bound)) := by
  have mirror := fun r listed => linked.induction.relation r (old r listed)
  cases s with
  | create s =>
      obtain ⟨table, source, ifNotExists, primaryKeys⟩ := s
      cases source with
      | some source => exact (mirror source (List.mem_singleton_self source) ctx).map _
      | none =>
          rw [Statement.render, Statement.render, CreateTable.render, CreateTable.render]
          cases table.schema with
          | some schema => exact .pure rfl
          | none => exact .throw _
  | drop s => exact .pure rfl
  | truncate t => exact .pure rfl
  | insert s =>
      obtain ⟨table, source, columns⟩ := s
      cases source with
      | rows rows => exact .pure rfl
      | query r => exact (mirror r (List.mem_singleton_self r) ctx).map _
  | commit => exact .pure rfl
  | explain query =>
      have listed := List.mem_singleton_self query
      exact ((linked.induction.relation query).query (old query listed) ctx).map _

theorem Node.render_repeats {node : Node} (old : node.HoldsOnly (Relation.Before bound))
    (ctx : Context) :
    Rendering.Repeats bound (node.render drawing ctx .drawn)
      (node.render links (ctx.before bound)) := by
  cases node with
  | expr e => exact linked.induction.expr e old ctx
  | relation r => exact linked.induction.relation r old ctx
  | statement s => exact Statement.render_repeats linked (Node.HoldsOnly.sources old) ctx

theorem Node.renderRoot_repeats {node : Node} (old : node.HoldsOnly (Relation.Before bound))
    (ctx : Context) :
    Rendering.Repeats bound (node.renderRoot drawing ctx .drawn)
      (node.renderRoot links (ctx.before bound)) := by
  cases node with
  | expr e =>
      by_cases isCode : ∃ sql, e = .code sql
      · obtain ⟨sql, rfl⟩ := isCode
        exact .pure rfl
      · have notCode : ∀ sql, e ≠ .code sql := fun sql same => isCode ⟨sql, same⟩
        rw [Node.renderRoot_value _ _ notCode, Node.renderRoot_expr _ _ notCode]
        have column := linked.induction.expr e old (ctx.placed true ctx.inJoin)
        apply Rendering.Mirrors.after_draw
        refine (selectText_mirrors (column.map _) (.pure rfl) (.pure rfl) (.pure rfl) (.pure rfl)
          (.pure rfl)).each ?_
        intro sql
        exact .enclose ctx sql
  | relation r => exact (linked.induction.relation r).query old ctx
  | statement s => exact Statement.render_repeats linked (Node.HoldsOnly.sources old) ctx

end

/-! Nodes with the placeholders and parameters that they mention. -/

theorem Settings.links_mirrors {store : Store} {settings : Settings}
    (old : ∀ value ∈ settings.values store, value.HoldsOnly (Relation.Before bound))
    (depth : Nat) :
    (settings.links store depth .drawn).Mirrors bound (settings.links store depth) := by
  induction depth with
  | zero =>
      intro name m ctx
      rw [Settings.follow_zero, Settings.follow_zero]
      cases settings.behind store m with
      | none => exact .throw _
      | some node => exact .throw _
  | succ depth ih =>
      intro name m ctx
      rw [Settings.follow_succ, Settings.follow_succ]
      cases behind : settings.behind store m with
      | none => exact .throw _
      | some node =>
          exact Node.render_repeats ih (old node (Settings.mem_values_of_behind behind)) ctx

/-- Every identity in use was given out: in the node, behind placeholders and in parameters. -/
def Settings.Supplied (settings : Settings) (store : Store) (node : Node) : Prop :=
  ∀ value ∈ node :: settings.values store, value.HoldsOnly (Relation.Before store.relations)

theorem Node.compileWithin_drawn (depth : Nat) (store : Store) (settings : Settings)
    (node : Node) :
    node.compileWithin depth store settings .drawn =
      match (node.renderRoot (settings.links store depth .drawn) settings.context .drawn).outcome
          (store.draft .drawn) with
      | (.ok body, draft) => .ok (draft.withClause body)
      | (.error e, _) => .error e :=
  rfl

/-- Identities drawn beyond those in use leave the text of a node as it is without them, or the
error in place of one. -/
theorem Node.compile_drawn {store : Store} {settings : Settings} {node : Node}
    (supplied : settings.Supplied store node) :
    node.compile store settings .drawn = node.compile store settings := by
  obtain ⟨old, oldValues⟩ := List.forall_mem_cons.mp supplied
  have linked := Settings.links_mirrors oldValues (settings.depth store)
  obtain ⟨_, same⟩ := Node.renderRoot_repeats linked old settings.context
    (store.draft .drawn) (Nat.le_refl _)
  have start : (store.draft .drawn).undrawn = {} := rfl
  have place : settings.context.before store.relations = settings.context := rfl
  rw [start, place] at same
  rw [Node.compile, Node.compile, Node.compileWithin_drawn, Node.compileWithin_eq, same]
  rcases (node.renderRoot (settings.links store (settings.depth store) .drawn) settings.context
    .drawn).outcome (store.draft .drawn) with ⟨e | body, draft⟩
  · rfl
  · rfl

/-- All that requests can lead to is written with identities as it is without them. -/
theorem History.compile_drawn {store : Store} {nodes : List Node} (history : History store nodes)
    {node : Node} (listed : node ∈ nodes) {settings : Settings}
    (params : ∀ value ∈ (settings.params.getD []).map Prod.snd, value ∈ nodes) :
    node.compile store settings .drawn = node.compile store settings := by
  apply Node.compile_drawn
  have ofNodes : ∀ value ∈ nodes, value.HoldsOnly (Relation.Before store.relations) :=
    fun value among r held => history.identified.below r (.inl ⟨value, among, held⟩)
  intro value among
  rw [Settings.values, List.mem_cons, List.mem_append, List.mem_map] at among
  rcases among with rfl | ⟨binding, bound, rfl⟩ | given
  · exact ofNodes value listed
  · exact fun r held => history.identified.below r (.inr ⟨binding, bound, held⟩)
  · exact ofNodes value (params value given)

end SqlQuery
