import SqlQuery.Dialect
import SqlQuery.Query

/-!
What the text of a node depends on besides the node: the dialect, the place where the node stands
and the aliases in scope there; and what is gathered while a whole query is written out: the
number of generated names and the definitions of the WITH clause.
-/

namespace SqlQuery

/-- An alias in scope: the columns of its owners are written with its name before them. -/
structure ScopedAlias where
  name : String
  owners : List RelationId
  deriving DecidableEq, Repr

structure Context where
  dialect : Dialect
  autocommit : Bool := false
  /-- In the FROM clause of a SELECT: a query needs parentheses and a name. -/
  inSelect : Bool := false
  /-- Among the sources of a join: a query needs parentheses. -/
  inJoin : Bool := false
  aliases : List ScopedAlias := []

/-- Relations are also made while a query is written out: the generated aliases of a join and the
queries that stand for names. They get identities as all relations do, and can be written without,
since no column belongs to them. -/
inductive Identities where
  | omitted
  | drawn
  deriving DecidableEq, Repr

structure Draft where
  /-- How many names were generated; the number is taken to stay below `2 ^ 32`. -/
  generated : Nat := 0
  /-- Heads and bodies of the definitions for the WITH clause, in order. -/
  definitions : List (String × String) := []
  /-- The number of the next identity, where they are drawn. -/
  relations : Nat := 0
  deriving DecidableEq, Repr

/-- Writing: a step may fail, and what it gathered before that stays. -/
abbrev Rendering := ExceptT Error (StateM Draft)

namespace Draft

def generatedName (n : Nat) : String :=
  "tmp" ++ toString n

/-- Sets the body of a definition: in its place if there is one with that head, at the end if
there is none. -/
def define (head body : String) : List (String × String) → List (String × String)
  | [] => [(head, body)]
  | (key, old) :: rest =>
      if key = head then (key, body) :: rest else (key, old) :: define head body rest

end Draft

namespace Rendering

/-- A name that no other place of the query gets. -/
def newName : Rendering String := do
  let draft ← get
  set { draft with generated := draft.generated + 1 }
  return Draft.generatedName (draft.generated + 1)

def draw : Identities → Rendering (List RelationId)
  | .omitted => return []
  | .drawn => do
      let draft ← get
      set { draft with relations := draft.relations + 1 }
      return [⟨draft.relations⟩]

def define (head body : String) : Rendering Unit :=
  modify fun draft => { draft with definitions := Draft.define head body draft.definitions }

end Rendering

namespace Context

def quote (ctx : Context) (name : String) : String :=
  ctx.dialect.quote name

def placed (ctx : Context) (inSelect inJoin : Bool) : Context :=
  { ctx with inSelect, inJoin }

def enclose (ctx : Context) (sql : String) : Rendering String :=
  if ctx.inSelect then do
    let name ← Rendering.newName
    return "(" ++ sql ++ ") " ++ name
  else if ctx.inJoin then
    return "(" ++ sql ++ ")"
  else
    return sql

/-- A column, after its alias when several relations are in scope and one alias covers the
relation that it belongs to. -/
def column (ctx : Context) (owner : RelationId) (name : String) : Except Error String :=
  match ctx.aliases with
  | [] => .ok (ctx.quote name)
  | [_] => .ok (ctx.quote name)
  | _ =>
      match ctx.aliases.filter (·.owners.contains owner) with
      | [] => .ok (ctx.quote name)
      | [only] => .ok (ctx.quote only.name ++ "." ++ ctx.quote name)
      | _ => .error (.tooManyAliases name)

end Context

end SqlQuery
