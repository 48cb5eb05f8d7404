import SqlQuery.Builder.Relation
import SqlQuery.Query.Statement

/-!
Statements about a table.
-/

namespace SqlQuery

namespace Table

def withSchema (t : Table) (schema : Schema) : Build Table :=
  Build.table t.path (some schema)

/-- Creates the table with the columns of its schema, of which there is at least one. -/
def create (t : Table) : Except Error CreateTable :=
  match t.schema with
  | some schema =>
      if schema.isEmpty then .error (.schemaRequired t.path.text) else .ok { table := t }
  | none => .error (.schemaRequired t.path.text)

def drop (t : Table) : DropTable :=
  { table := t }

def insertRows (t : Table) (rows : List Row) (columns : Option (List String)) : Insert :=
  { table := t, source := .rows rows, columns }

def insertRow (t : Table) (row : Row) (columns : Option (List String)) : Insert :=
  t.insertRows [row] columns

end Table

namespace Build

/-- A query for a statement, which does not take the bare name of a table. -/
def statementSource (source : Relation) : Build Relation :=
  match source with
  | .table _ => do return .select (← selectStar (some source))
  | _ => return source

def createAs (t : Table) (source : Relation) : Build CreateTable := do
  return { table := t, source := some (← statementSource source) }

def insertFrom (t : Table) (source : Relation) : Build Insert := do
  return { table := t, source := .query (← statementSource source) }

end Build

end SqlQuery
