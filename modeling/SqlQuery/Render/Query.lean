import SqlQuery.Query.Statement
import SqlQuery.Render.Context

/-!
The text of expressions and relations. It is read off their structure; what stands behind a
placeholder or a parameter is written by `Links`.

The parts of a node are written in the order in which they stand in the text, except that the
sources of a join come before its columns: names are generated in that order, and the first
error met is the one reported.
-/

namespace SqlQuery

structure Links where
  placeholder : PlaceholderId → String → Context → Rendering String
  param : String → Context → Rendering String

def clause (keyword separator : String) : List String → String
  | [] => ""
  | items => " " ++ keyword ++ " " ++ separator.intercalate items

def selectList : List String → String
  | [] => "*"
  | items => ", ".intercalate items

/-- The text of a SELECT from those of its parts, which are written in this order. -/
def selectText (dialect : Dialect) (distinct : Bool) (limit : Option UInt64)
    (columns : Rendering (List String)) (source : Rendering (Option String))
    (filters groupBy having orderBy : Rendering (List String)) : Rendering String := do
  let columns ← columns
  let source ← source
  let filters ← filters
  let groupBy ← groupBy
  let having ← having
  let orderBy ← orderBy
  return "SELECT " ++ (if distinct then "DISTINCT " else "") ++ selectList columns ++
    clause "FROM" "" source.toList ++ clause "WHERE" " AND " filters ++
    clause "GROUP BY" ", " groupBy ++ clause "HAVING" " AND " having ++
    clause "ORDER BY" ", " orderBy ++
    (if limit.isSome then " " ++ dialect.offsetLimit none limit else "")

/-- The numbers of the columns to group by: the keys come first in the select list. -/
def keyPositions (keys : List ε) : List String :=
  (List.range keys.length).map fun i => toString (i + 1)

def concatText (dialect : Dialect) (separator : Option String) (items : List String) :
    Except Error String :=
  match items.map fun item => "coalesce(" ++ dialect.toText item ++ ", '<null>')" with
  | [] => .error .emptyConcat
  | [only] => .ok only
  | items =>
      match separator with
      | none => .ok (dialect.concat items)
      | some separator =>
          .ok (dialect.concat (items.intersperse (Dialect.textLiteral separator)))

/-- The text of a relation where a query must stand: the name of a relation becomes a query for
all its rows. -/
def Context.query (ctx : Context) (r : Relation) (render : Context → Rendering String)
    (ids : Identities := .omitted) : Rendering String :=
  if r.isQuery then
    render ctx
  else do
    discard (Rendering.draw ids)
    let source ← render (ctx.placed true ctx.inJoin)
    ctx.enclose ("SELECT * FROM " ++ source)

/-- The aliases of the sources of a join: their own ones, and generated ones for the others. -/
def joinAliases (sources : List Relation) (ids : Identities := .omitted) :
    Rendering (List ScopedAlias) :=
  match sources with
  | [] => return []
  | .aliased a :: rest => do
      return ⟨a.name, [a.id, a.source.id]⟩ :: (← joinAliases rest ids)
  | r :: rest => do
      let name ← Rendering.newName
      let own ← Rendering.draw ids
      return ⟨name, own ++ [r.id]⟩ :: (← joinAliases rest ids)

/-- The text of a source of a join with its alias, which the text of an alias has already. -/
def aliasedSource (ctx : Context) : Relation × ScopedAlias → String → String
  | (.aliased _, _), text => text
  | (_, a), text => text ++ " " ++ ctx.quote a.name

def tableText (ctx : Context) (t : Table) : String :=
  ".".intercalate (t.path.segments.map ctx.quote)

mutual

def Expr.render (links : Links) (ctx : Context) (e : Expr) (ids : Identities := .omitted) :
    Rendering String :=
  match e with
  | .value v => return ctx.dialect.literal v
  | .code sql => return sql
  | .column ⟨source, name⟩ => ctx.column source.id name
  | .placeholder id name => links.placeholder id name ctx
  | .aliased e name => do return (← e.render links ctx ids) ++ " AS " ++ ctx.quote name
  | .concat items separator => do
      concatText ctx.dialect separator (← Expr.renderAll links ctx items ids)
  | .count argument distinct => do
      let argument ← match argument with
        | none => pure "*"
        | some e => e.render links ctx ids
      return "count(" ++ (if distinct then "distinct " else "") ++ argument ++ ")"
  | .call function arguments => do
      return function ++ "(" ++ ", ".intercalate (← Expr.renderAll links ctx arguments ids) ++ ")"
  | .case ⟨branches, otherwise⟩ => do
      if branches.isEmpty then throw .emptyCase
      let branches ← Expr.renderBranches links ctx branches ids
      let otherwise ← match otherwise with
        | none => pure ""
        | some e => do pure (" ELSE " ++ (← e.render links ctx ids))
      return "CASE" ++ branches ++ otherwise ++ " END"
  | .isDistinctFrom left right => do
      let left ← left.render links ctx ids
      return ctx.dialect.isDistinctFrom left (← right.render links ctx ids)
  | .binary operator arguments => do
      let arguments ← Expr.renderAll links ctx arguments ids
      return "(" ++ (" " ++ operator.symbol ++ " ").intercalate arguments ++ ")"
  | .negate e => do return "(-" ++ (← e.render links ctx ids) ++ ")"
  | .isIn e list => do
      let e ← e.render links ctx ids
      return "(" ++ e ++ " IN (" ++
        ", ".intercalate (← Expr.renderAll links ctx list ids) ++ "))"
  | .cast e type => do
      return "cast(" ++ (← e.render links ctx ids) ++ " as " ++ ctx.dialect.typeName type ++ ")"
  | .random => return ctx.dialect.random
  | .currentTimestamp => return ctx.dialect.currentTimestamp
  | .param name => links.param name ctx
  | .subquery r => do
      let query ← (ctx.placed false false).query r (fun ctx => r.render links ctx ids) ids
      return "(" ++ query ++ ")"

def Expr.renderAll (links : Links) (ctx : Context) (es : List Expr)
    (ids : Identities := .omitted) : Rendering (List String) :=
  match es with
  | [] => return []
  | e :: rest => do
      let text ← e.render links ctx ids
      return text :: (← Expr.renderAll links ctx rest ids)

def Expr.renderBranches (links : Links) (ctx : Context) (branches : List (BranchOf Expr))
    (ids : Identities := .omitted) : Rendering String :=
  match branches with
  | [] => return ""
  | ⟨condition, result⟩ :: rest => do
      let condition ← condition.render links ctx ids
      let result ← result.render links ctx ids
      return " WHEN " ++ condition ++ " THEN " ++ result ++
        (← Expr.renderBranches links ctx rest ids)

def Relation.render (links : Links) (ctx : Context) (r : Relation)
    (ids : Identities := .omitted) : Rendering String :=
  match r with
  | .table t => return tableText ctx t
  | .aliased ⟨_, source, name⟩ => do
      return (← source.render links (ctx.placed false true) ids) ++ " " ++ ctx.quote name
  | .join ⟨_, sources, kind, on, columns⟩ => do
      let aliases ← joinAliases sources ids
      let inner := { ctx.placed false true with aliases := ctx.aliases ++ aliases }
      let texts ← Relation.renderAll links inner sources ids
      let on ← Expr.renderAll links inner on ids
      let columns ← match columns with
        | none => pure "*"
        | some columns => do pure (", ".intercalate (← Expr.renderAll links inner columns ids))
      ctx.enclose ("SELECT " ++ columns ++ " FROM " ++
        kind.separator.intercalate ((sources.zip aliases).zipWith (aliasedSource ctx) texts) ++
        clause "ON" " AND " on)
  | .grouping ⟨_, table, keys, values, having⟩ =>
      let nested : Rendering String := do
        let keyTexts ← Expr.renderAll links ctx keys ids
        let valueTexts ← Expr.renderAll links ctx values ids
        let source ← table.render links (ctx.placed true false) ids
        let having ← Expr.renderAll links ctx having ids
        ctx.enclose ("SELECT " ++ ", ".intercalate (keyTexts ++ valueTexts) ++
          " FROM " ++ source ++ clause "GROUP BY" ", " (keyPositions keys) ++
          clause "HAVING" " AND " having)
      match table with
      | .select ⟨_, source, columns, filters, orderBy, groupBy, _, limit, distinct⟩ =>
          -- A plain select takes the grouping into itself.
          if columns.isNone && groupBy.isEmpty && limit.isNone && !distinct then do
            discard (Rendering.draw ids)
            let inner := ctx.placed true ctx.inJoin
            let sql ← selectText ctx.dialect false none
              (do return (← Expr.renderAll links inner keys ids) ++
                (← Expr.renderAll links inner values ids))
              (match source with
                | none => return ctx.dialect.placeholderTable
                | some source => do return some (← source.render links inner ids))
              (Expr.renderAll links inner filters ids)
              (return keyPositions keys)
              (Expr.renderAll links inner having ids)
              (Expr.renderAll links inner orderBy ids)
            ctx.enclose sql
          else
            nested
      | _ => nested
  | .setOperation ⟨_, operator, left, right⟩ => do
      let inner := ctx.placed false ctx.inJoin
      let leftText ← inner.query left (fun ctx => left.render links ctx ids) ids
      let rightText ← inner.query right (fun ctx => right.render links ctx ids) ids
      ctx.enclose (leftText ++ " " ++ operator.keyword ++ " " ++ rightText)
  | .select ⟨_, source, columns, filters, orderBy, groupBy, having, limit, distinct⟩ => do
      let inner := ctx.placed true ctx.inJoin
      let sql ← selectText ctx.dialect distinct limit
        (match columns with
          | none => return []
          | some columns => Expr.renderAll links inner columns ids)
        (match source with
          | none => return ctx.dialect.placeholderTable
          | some source => do return some (← source.render links inner ids))
        (Expr.renderAll links inner filters ids)
        (Expr.renderAll links inner groupBy ids)
        (Expr.renderAll links inner having ids)
        (Expr.renderAll links inner orderBy ids)
      ctx.enclose sql
  | .cte ⟨_, source, name, params⟩ => do
      let inner := { ctx.placed false ctx.inJoin with aliases := [] }
      let body ← inner.query source (fun ctx => source.render links ctx ids) ids
      let name ← match name with
        | some name => pure name
        | none => Rendering.newName
      let head := match params with
        | some (first :: rest) => name ++ "(" ++ ", ".intercalate (first :: rest) ++ ")"
        | _ => name
      Rendering.define head body
      return name
  | .param ⟨_, name⟩ => links.param name ctx

def Relation.renderAll (links : Links) (ctx : Context) (rs : List Relation)
    (ids : Identities := .omitted) : Rendering (List String) :=
  match rs with
  | [] => return []
  | r :: rest => do
      let text ← r.render links ctx ids
      return text :: (← Relation.renderAll links ctx rest ids)

end

end SqlQuery
