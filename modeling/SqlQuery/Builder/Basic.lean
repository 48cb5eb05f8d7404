import SqlQuery.Query.Typing
import SqlQuery.Query.Walk

/-!
The state in which queries are put together, the leaves of queries, and the binding of
placeholders. A step may fail; what it bound before that stays bound.
-/

namespace SqlQuery

abbrev Build := ExceptT Error (StateM Store)

namespace Build

def newRelationId : Build RelationId := do
  let store ← get
  set { store with relations := store.relations + 1 }
  return ⟨store.relations⟩

/-- A placeholder for the column of a name, bound by the next step that it is given to. -/
def this (name : String) : Build Expr := do
  let store ← get
  set { store with placeholders := store.placeholders + 1 }
  return .placeholder ⟨store.placeholders⟩ name

def table (path : Path) (schema : Option Schema) : Build Table := do
  return { id := ← newRelationId, path, schema }

def aliased (source : Relation) (name : String) : Build Alias := do
  return { id := ← newRelationId, source, name }

def cte (source : Relation) (name : Option String) (params : Option (List String)) :
    Build Cte := do
  return { id := ← newRelationId, source, name, params }

def tableParam (name : String) : Build TableParam := do
  return { id := ← newRelationId, name }

/-- Binds a placeholder, which can be done once. -/
def bind (id : PlaceholderId) (name : String) (e : Expr) : Build Unit := do
  let store ← get
  match store.binding? id with
  | some _ => throw (.alreadyResolved name)
  | none => set (store.bind id e)

def column (source : Relation) (name : String) : Build Expr := do
  return .column (← source.column (← get) name)

end Build

def Expr.placeholder? : Expr → Option (PlaceholderId × String)
  | .placeholder id name => some (id, name)
  | _ => none

/-- The placeholders in a list of expressions, each once, in the order of their first
occurrences. -/
def Expr.placeholders (exprs : List Expr) : List (PlaceholderId × String) :=
  ((exprs.flatMap Expr.walk).filterMap Expr.placeholder?).eraseDups

/-- Binds every placeholder in a list of expressions to the column of its name. -/
def Build.resolve (source : Relation) (exprs : List Expr) : Build Unit :=
  (Expr.placeholders exprs).forM fun (id, name) => do
    Build.bind id name (← Build.column source name)

/-- The arguments that are given; the others are skipped. -/
abbrev Arguments := List (Option Expr)

def Arguments.present (arguments : Arguments) : List Expr :=
  arguments.filterMap fun e => e

end SqlQuery
