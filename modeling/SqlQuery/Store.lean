import SqlQuery.Query

/-!
What queries share while they are put together: the numbers given out to relations and
placeholders, and the expressions that placeholders are bound to.
-/

namespace SqlQuery

structure Store where
  relations : Nat := 0
  placeholders : Nat := 0
  bindings : List (PlaceholderId × Expr) := []

namespace Store

def binding? (store : Store) (id : PlaceholderId) : Option Expr :=
  store.bindings.lookup id

def bind (store : Store) (id : PlaceholderId) (e : Expr) : Store :=
  { store with bindings := store.bindings ++ [(id, e)] }

/-- A chain of bindings without a repetition is at most this long. -/
def depth (store : Store) : Nat :=
  store.bindings.length

def resolve (store : Store) (id : PlaceholderId) (name : String) : Except Error Expr :=
  match store.binding? id with
  | some e => .ok e
  | none => .error (.unresolved name)

end Store

end SqlQuery
