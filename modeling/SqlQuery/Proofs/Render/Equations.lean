import SqlQuery.Render.Statement

/-!
The text of each kind of node from those of its parts. The parts that a node may lack have names
of their own, so that one equation covers the node with them and without them.
-/

namespace SqlQuery

variable (links : Links) (ctx : Context)

/-! Parts that may be missing. -/

def Expr.renderElse (otherwise : Option Expr) (ids : Identities := .omitted) : Rendering String :=
  match otherwise with
  | none => pure ""
  | some e => do return " ELSE " ++ (← e.render links ctx ids)

/-- The argument of a count; without one, all rows are counted. -/
def Expr.renderCounted (argument : Option Expr) (ids : Identities := .omitted) :
    Rendering String :=
  match argument with
  | none => pure "*"
  | some e => e.render links ctx ids

/-- The columns of a join; without a choice, those of all its sources. -/
def Expr.renderJoined (columns : Option (List Expr)) (ids : Identities := .omitted) :
    Rendering String :=
  match columns with
  | none => pure "*"
  | some columns => do return ", ".intercalate (← Expr.renderAll links ctx columns ids)

/-- The items of a select list; there are none where all columns are taken. -/
def Expr.renderSelected (columns : Option (List Expr)) (ids : Identities := .omitted) :
    Rendering (List String) :=
  match columns with
  | none => pure []
  | some columns => Expr.renderAll links ctx columns ids

/-- The relation after FROM, or the table that stands in for a missing one. -/
def Relation.renderFrom (source : Option Relation) (ids : Identities := .omitted) :
    Rendering (Option String) :=
  match source with
  | none => pure ctx.dialect.placeholderTable
  | some source => do return some (← source.render links ctx ids)

/-- The context inside a join, where the aliases of its sources are in scope too. -/
def Context.joined (aliases : List ScopedAlias) : Context :=
  { ctx.placed false true with aliases := ctx.aliases ++ aliases }

def Context.defining : Context :=
  { ctx.placed false ctx.inJoin with aliases := [] }

def joinText (kind : JoinKind) (sources : List Relation) (aliases : List ScopedAlias)
    (texts on : List String) (columns : String) : String :=
  "SELECT " ++ columns ++ " FROM " ++
    kind.separator.intercalate ((sources.zip aliases).zipWith (aliasedSource ctx) texts) ++
    clause "ON" " AND " on

def groupingText (keys : List Expr) (keyTexts valueTexts : List String) (source : String)
    (having : List String) : String :=
  "SELECT " ++ ", ".intercalate (keyTexts ++ valueTexts) ++ " FROM " ++ source ++
    clause "GROUP BY" ", " (keyPositions keys) ++ clause "HAVING" " AND " having

def definitionHead (params : Option (List String)) (name : String) : String :=
  match params with
  | some (first :: rest) => name ++ "(" ++ ", ".intercalate (first :: rest) ++ ")"
  | _ => name

def definitionName : Option String → Rendering String
  | some name => pure name
  | none => Rendering.newName

/-- Whether a grouping of a SELECT is written as one query with it. -/
def SelectOf.isPlain (s : Select) : Bool :=
  s.columns.isNone && s.groupBy.isEmpty && s.limit.isNone && !s.distinct

theorem Relation.plain_or_nested (table : Relation) :
    (∃ s, table = .select s ∧ s.isPlain = true) ∨ ∀ s, table = .select s → s.isPlain = false := by
  by_cases plain : ∃ s, table = .select s ∧ s.isPlain = true
  · exact .inl plain
  · right
    intro s same
    exact Bool.eq_false_iff.mpr fun isPlain => plain ⟨s, same, isPlain⟩

theorem Context.query_omitted (r : Relation) (render : Context → Rendering String) :
    ctx.query r render =
      if r.isQuery then render ctx
      else render (ctx.placed true ctx.inJoin) >>= fun source =>
        ctx.enclose ("SELECT * FROM " ++ source) :=
  rfl

variable {ids : Identities}

/-! Expressions. -/

theorem Expr.render_count (argument : Option Expr) (distinct : Bool) :
    (Expr.count argument distinct).render links ctx ids = (do
      let argument ← Expr.renderCounted links ctx argument ids
      return "count(" ++ (if distinct then "distinct " else "") ++ argument ++ ")") := by
  cases argument with
  | none => rfl
  | some e => rw [Expr.render, Expr.renderCounted]

theorem Expr.render_case (branches : List (BranchOf Expr)) (otherwise : Option Expr) :
    (Expr.case ⟨branches, otherwise⟩).render links ctx ids =
      if branches.isEmpty then throw .emptyCase
      else do
        let branches ← Expr.renderBranches links ctx branches ids
        let otherwise ← Expr.renderElse links ctx otherwise ids
        return "CASE" ++ branches ++ otherwise ++ " END" := by
  rw [Expr.render]
  cases branches with
  | nil => rfl
  | cons branch rest =>
      cases otherwise with
      | none => simp [Expr.renderElse]
      | some e => simp [Expr.renderElse]

theorem Expr.renderAll_append (first second : List Expr) :
    Expr.renderAll links ctx (first ++ second) = (do
      return (← Expr.renderAll links ctx first) ++ (← Expr.renderAll links ctx second)) := by
  induction first with
  | nil => simp [Expr.renderAll]
  | cons e rest ih => simp [Expr.renderAll, ih]

/-! Relations. -/

theorem Relation.render_join (id : RelationId) (sources : List Relation) (kind : JoinKind)
    (on : List Expr) (columns : Option (List Expr)) :
    (Relation.join ⟨id, sources, kind, on, columns⟩).render links ctx ids = (do
      let aliases ← joinAliases sources ids
      let texts ← Relation.renderAll links (ctx.joined aliases) sources ids
      let on ← Expr.renderAll links (ctx.joined aliases) on ids
      let columns ← Expr.renderJoined links (ctx.joined aliases) columns ids
      ctx.enclose (joinText ctx kind sources aliases texts on columns)) := by
  rw [Relation.render]
  cases columns with
  | none => simp [Expr.renderJoined, joinText, Context.joined]
  | some columns => simp [Expr.renderJoined, joinText, Context.joined]

theorem Relation.render_select (s : Select) :
    (Relation.select s).render links ctx ids = (do
      let inner := ctx.placed true ctx.inJoin
      let sql ← selectText ctx.dialect s.distinct s.limit
        (Expr.renderSelected links inner s.columns ids)
        (Relation.renderFrom links inner s.table ids)
        (Expr.renderAll links inner s.filters ids) (Expr.renderAll links inner s.groupBy ids)
        (Expr.renderAll links inner s.having ids) (Expr.renderAll links inner s.orderBy ids)
      ctx.enclose sql) := by
  obtain ⟨id, table, columns, filters, orderBy, groupBy, having, limit, distinct⟩ := s
  cases table with
  | none => cases columns <;> rfl
  | some table => cases columns <;> rfl

theorem Relation.render_grouping_merged (id : RelationId) (s : Select)
    (keys values having : List Expr) (plain : s.isPlain = true) :
    (Relation.grouping ⟨id, .select s, keys, values, having⟩).render links ctx ids = (do
      discard (Rendering.draw ids)
      let inner := ctx.placed true ctx.inJoin
      let sql ← selectText ctx.dialect false none
        (do return (← Expr.renderAll links inner keys ids) ++
          (← Expr.renderAll links inner values ids))
        (Relation.renderFrom links inner s.table ids) (Expr.renderAll links inner s.filters ids)
        (return keyPositions keys) (Expr.renderAll links inner having ids)
        (Expr.renderAll links inner s.orderBy ids)
      ctx.enclose sql) := by
  obtain ⟨_, table, columns, filters, orderBy, groupBy, _, limit, distinct⟩ := s
  change (columns.isNone && groupBy.isEmpty && limit.isNone && !distinct) = true at plain
  rw [Relation.render, if_pos plain]
  cases table with
  | none => rfl
  | some table => rfl

theorem Relation.render_grouping_plain (id : RelationId) (s : Select)
    (keys values having : List Expr) (plain : s.isPlain = true) :
    (Relation.grouping ⟨id, .select s, keys, values, having⟩).render links ctx = (do
      let inner := ctx.placed true ctx.inJoin
      let sql ← selectText ctx.dialect false none
        (do return (← Expr.renderAll links inner keys) ++ (← Expr.renderAll links inner values))
        (Relation.renderFrom links inner s.table) (Expr.renderAll links inner s.filters)
        (return keyPositions keys) (Expr.renderAll links inner having)
        (Expr.renderAll links inner s.orderBy)
      ctx.enclose sql) :=
  Relation.render_grouping_merged links ctx id s keys values having plain

theorem Relation.render_grouping_nested (id : RelationId) (table : Relation)
    (keys values having : List Expr) (nested : ∀ s, table = .select s → s.isPlain = false) :
    (Relation.grouping ⟨id, table, keys, values, having⟩).render links ctx ids = (do
      let keyTexts ← Expr.renderAll links ctx keys ids
      let valueTexts ← Expr.renderAll links ctx values ids
      let source ← table.render links (ctx.placed true false) ids
      let having ← Expr.renderAll links ctx having ids
      ctx.enclose (groupingText keys keyTexts valueTexts source having)) := by
  cases table with
  | select s =>
      obtain ⟨_, table, columns, filters, orderBy, groupBy, _, limit, distinct⟩ := s
      have notPlain :
          ¬ (columns.isNone && groupBy.isEmpty && limit.isNone && !distinct) = true :=
        Bool.eq_false_iff.mp (nested _ rfl)
      rw [Relation.render, if_neg notPlain]
      rfl
  | _ => rfl

theorem Relation.render_cte (id : RelationId) (source : Relation) (name : Option String)
    (params : Option (List String)) :
    (Relation.cte ⟨id, source, name, params⟩).render links ctx ids = (do
      let body ← ctx.defining.query source (fun ctx => source.render links ctx ids) ids
      let name ← definitionName name
      Rendering.define (definitionHead params name) body
      return name) := by
  rw [Relation.render]
  cases name with
  | none => rfl
  | some name => rfl

end SqlQuery
