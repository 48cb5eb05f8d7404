import SqlQuery.Query

/-!
Statements that change a database or ask it about a query, and the nodes that can be written out
as SQL: expressions, relations and statements.
-/

namespace SqlQuery

/-- `CREATE TABLE`, with the columns of the table's schema or with the rows of a query. -/
structure CreateTable where
  table : Table
  source : Option Relation := none
  ifNotExists : Bool := false
  primaryKeys : List String := []

structure DropTable where
  table : Table
  ifExists : Bool := false

inductive InsertSource where
  | rows (rows : List Row)
  | query (r : Relation)

structure Insert where
  table : Table
  source : InsertSource
  columns : Option (List String) := none

inductive Statement where
  | create (s : CreateTable)
  | drop (s : DropTable)
  | truncate (t : Table)
  | insert (s : Insert)
  | commit
  | explain (query : Relation)

inductive Node where
  | expr (e : Expr)
  | relation (r : Relation)
  | statement (s : Statement)

instance : Coe Expr Node := ⟨.expr⟩

instance : Coe Relation Node := ⟨.relation⟩

instance : Coe Statement Node := ⟨.statement⟩

abbrev Params := List (String × Node)

end SqlQuery
