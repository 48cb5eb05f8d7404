import SqlQuery.Builder.Statement
import SqlQuery.Render.Compile

/-!
Databases: something that runs SQL, and what can be done with any such thing. A database keeps a
state of its own; a step on it may fail, and the state it reached stays.
-/

namespace SqlQuery

abbrev Session (σ : Type) := ExceptT Error (StateM σ)

structure Database (σ : Type) where
  dialect : Dialect
  /-- Whether every statement commits by itself. -/
  autocommit : Bool
  /-- The schema of tables that are named without one. -/
  defaultSchema : String
  execute : String → Session σ (List Row)
  close : Session σ Unit

/-- Consecutive pieces of a list, each of the given size except perhaps the last. The first
argument bounds their number. -/
def chunksWithin (size : Nat) : Nat → List α → List (List α)
  | 0, _ => []
  | _, [] => []
  | fuel + 1, items => items.take size :: chunksWithin size fuel (items.drop size)

def chunks (size : Nat) (items : List α) : List (List α) :=
  chunksWithin size items.length items

def defaultBatchSize : Nat := 8192

namespace Database

def settings (db : Database σ) (params : Option Params) : Settings where
  dialect := db.dialect
  autocommit := db.autocommit
  params := params

/-- Runs SQL. An empty text is not sent and has no rows. -/
def run (db : Database σ) (sql : String) : Session σ (List Row) :=
  if sql = "" then return [] else db.execute sql

def query (db : Database σ) (store : Store) (node : Node) (params : Option Params) :
    Session σ (List Row) := do
  db.run (← node.compile store (db.settings params))

/-- A path of schema and table: a table alone is in the default schema. -/
def normalizePath (db : Database σ) (path : Path) : Except Error Path :=
  match path.segments with
  | [name] => Path.ofSegments [db.defaultSchema, name]
  | [_, _] => .ok path
  | _ => .error (.badTablePath db.dialect.name path.text)

/-- Inserts rows in order, so many at a time, up to the first failure. -/
def insertInBatches (db : Database σ) (store : Store) (t : Table) (rows : List Row)
    (columns : Option (List String)) (size : Nat) : Session σ Unit :=
  if size = 0 then
    throw .zeroBatchSize
  else
    (chunks size rows).forM fun batch =>
      discard (db.query store (.statement (.insert (t.insertRows batch columns))) none)

end Database

end SqlQuery
