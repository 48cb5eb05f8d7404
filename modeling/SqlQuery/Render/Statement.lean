import SqlQuery.Render.Query

/-!
The text of statements.
-/

namespace SqlQuery

def columnDefinitions (ctx : Context) (schema : Schema) (primaryKeys : List String) : String :=
  let columns := schema.columns.map fun (name, type) =>
    ctx.quote name ++ " " ++ ctx.dialect.typeName type
  let keys :=
    if !primaryKeys.isEmpty && ctx.dialect.supportsPrimaryKey then
      ", PRIMARY KEY (" ++ ", ".intercalate (primaryKeys.map ctx.quote) ++ ")"
    else
      ""
  ", ".intercalate columns ++ keys

def CreateTable.render (links : Links) (ctx : Context) (s : CreateTable)
    (ids : Identities := .omitted) : Rendering String := do
  let head := "CREATE TABLE " ++ (if s.ifNotExists then "IF NOT EXISTS " else "") ++
    tableText ctx s.table
  match s.source with
  | some source => return head ++ " AS " ++ (← source.render links ctx ids)
  | none =>
      match s.table.schema with
      | some schema => return head ++ "(" ++ columnDefinitions ctx schema s.primaryKeys ++ ")"
      | none => throw (.schemaRequired s.table.path.text)

def Insert.render (links : Links) (ctx : Context) (s : Insert)
    (ids : Identities := .omitted) : Rendering String := do
  let source ← match s.source with
    | .rows rows => pure (ctx.dialect.constantRows rows)
    | .query query => query.render links ctx ids
  let columns := match s.columns with
    | some columns => "(" ++ ", ".intercalate (columns.map ctx.quote) ++ ")"
    | none => ""
  return "INSERT INTO " ++ tableText ctx s.table ++ columns ++ " " ++ source

/-- A database that commits by itself gets no COMMIT. -/
def Statement.render (links : Links) (ctx : Context) (s : Statement)
    (ids : Identities := .omitted) : Rendering String :=
  match s with
  | .create s => s.render links ctx ids
  | .drop s =>
      return "DROP TABLE " ++ (if s.ifExists then "IF EXISTS " else "") ++ tableText ctx s.table
  | .truncate t => return "TRUNCATE TABLE " ++ tableText ctx t
  | .insert s => s.render links ctx ids
  | .commit => return (if ctx.autocommit then "" else "COMMIT")
  | .explain query => do
      return ctx.dialect.explain
        (← ctx.query query (fun ctx => query.render links ctx ids) ids)

def Node.render (links : Links) (ctx : Context) (node : Node) (ids : Identities := .omitted) :
    Rendering String :=
  match node with
  | .expr e => e.render links ctx ids
  | .relation r => r.render links ctx ids
  | .statement s => s.render links ctx ids

end SqlQuery
