import SqlQuery.Query.Owners
import SqlQuery.Render.Statement
import SqlQuery.Store
import SqlQuery.Text.Escaped

/-!
The SQL of a whole node: an expression becomes a query for its value, the name of a relation one
for its rows, and the definitions gathered on the way go into a WITH clause before the rest.

The nodes behind placeholders and parameters may have placeholders and parameters themselves. They
are followed link by link. A chain that comes to the same binding or parameter again goes on from
there as it did before, unless more aliases cover a column by then: one that was covered by none or
by one may be covered by two, and cannot be written any more. So a chain that does not go on for
ever has at most one link for each binding or parameter and each way in which no alias, one alias
or several ones cover the columns of all of them.
-/

namespace SqlQuery

/-- The choices for the text of a node that the node leaves open. -/
structure Settings where
  dialect : Dialect
  autocommit : Bool := false
  params : Option Params := none

namespace Settings

def context (settings : Settings) : Context where
  dialect := settings.dialect
  autocommit := settings.autocommit

def param (settings : Settings) (name : String) : Except Error Node :=
  match settings.params.bind (·.lookup name) with
  | some node => .ok node
  | none => .error (.missingParam name)

/-- Writes the nodes behind placeholders and parameters, along at most the given number of
links. -/
def links (store : Store) (settings : Settings) (depth : Nat) (ids : Identities := .omitted) :
    Links :=
  match depth with
  | 0 =>
    { placeholder := fun id name _ => do
        discard (store.resolve id name)
        throw .unending
      param := fun name _ => do
        discard (settings.param name)
        throw .unending }
  | depth + 1 =>
    { placeholder := fun id name ctx => do
        (← store.resolve id name).render (links store settings depth ids) ctx ids
      param := fun name ctx => do
        (← settings.param name).render (links store settings depth ids) ctx ids }

def values (store : Store) (settings : Settings) : List Node :=
  store.bindings.map (fun binding => .expr binding.2) ++ (settings.params.getD []).map Prod.snd

def owners (store : Store) (settings : Settings) : List RelationId :=
  (settings.values store).flatMap Node.owners

/-- Links enough for every chain that ends. -/
def depth (store : Store) (settings : Settings) : Nat :=
  (settings.values store).length * Nat.pow 3 (settings.owners store).length

def describe (settings : Settings) : String :=
  "Compiler \x7b dialect: " ++ Text.described settings.dialect.name ++ ", autocommit: " ++
    (if settings.autocommit then "true" else "false") ++
    ", root: true, in_select: false, in_join: false, tables: 0, .. \x7d"

end Settings

/-- The text of a node that stands alone. SQL text and statements are taken as they are. -/
def Node.renderRoot (links : Links) (ctx : Context) (node : Node)
    (ids : Identities := .omitted) : Rendering String :=
  match node with
  | .expr (.code sql) => return sql
  | .expr e => do
      discard (Rendering.draw ids)
      let sql ← selectText ctx.dialect false none
        (do return [← e.render links (ctx.placed true ctx.inJoin) ids])
        (return ctx.dialect.placeholderTable) (return []) (return []) (return []) (return [])
      ctx.enclose sql
  | .relation r => ctx.query r (fun ctx => r.render links ctx ids) ids
  | .statement s => s.render links ctx ids

def Draft.withClause (draft : Draft) (body : String) : String :=
  match draft.definitions with
  | [] => body
  | definitions =>
      let items := definitions.map fun (head, text) => "\n  " ++ head ++ " AS (" ++ text ++ ")"
      "WITH " ++ ", ".intercalate items ++ "\n" ++ body

/-- What a text starts from. Identities are drawn from where those of the store end. -/
def Store.draft (store : Store) : Identities → Draft
  | .omitted => {}
  | .drawn => { relations := store.relations }

def Node.compileWithin (depth : Nat) (store : Store) (settings : Settings) (node : Node)
    (ids : Identities := .omitted) : Except Error String :=
  let rendering := node.renderRoot (settings.links store depth ids) settings.context ids
  match rendering.run.run (store.draft ids) with
  | (.ok body, draft) => .ok (draft.withClause body)
  | (.error e, _) => .error e

def Node.compile (store : Store) (settings : Settings) (node : Node)
    (ids : Identities := .omitted) : Except Error String :=
  node.compileWithin (settings.depth store) store settings ids

end SqlQuery
