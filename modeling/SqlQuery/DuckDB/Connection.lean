import SqlQuery.Database
import SqlQuery.Dialect.DuckDB
import SqlQuery.DuckDB.Cell
import SqlQuery.DuckDB.Config
import SqlQuery.Text.Blank

/-!
A DuckDB database behind a connection. The engine itself is given by its operations on a state of
its own; a connection adds whether it is open, which statements answer with rows, and how failures
are reported.
-/

namespace SqlQuery.DuckDB

/-- An operation of the engine; a failure comes with the engine's own words. -/
abbrev Operation (σ : Type) := ExceptT String (StateM σ)

structure Engine (σ : Type) where
  openInMemory : Operation σ Unit
  openFile : String → Operation σ Unit
  /-- Runs a statement that answers with rows; reading a row may fail as well. -/
  fetch : String → Operation σ (List (Except String (List Cell)))
  /-- Runs a statement that has no answer. -/
  executeBatch : String → Operation σ Unit
  close : Operation σ Unit

structure Connection (σ : Type) where
  engine : σ
  isOpen : Bool := true

/-- Whether a statement answers with rows, by its first word. -/
def returnsRows (sql : String) : Bool :=
  let head := ((Text.trimStart sql).map Char.toUpper).toList
  ["SELECT", "WITH", "EXPLAIN", "VALUES", "SHOW", "DESCRIBE", "PRAGMA"].any
    fun word => word.toList.isPrefixOf head

namespace Engine

def connect (engine : Engine σ) (config : Config) : Session σ Unit :=
  ExceptT.adapt Error.connectionRefused
    (if config.isInMemory then engine.openInMemory else engine.openFile config.filepath)

def report (sql : String) : Except String α → Session (Connection σ) α
  | .ok a => return a
  | .error reason => throw (.execution sql reason)

def perform (sql : String) (operation : Operation σ α) : Session (Connection σ) α := do
  let connection ← get
  if connection.isOpen then
    let (result, state) := operation.run.run connection.engine
    set { connection with engine := state }
    report sql result
  else
    throw (.execution sql "connection is closed")

/-- The values of an answer, unless one of its rows cannot be read. -/
def rowsOfAnswer (answer : List (Except String (List Cell))) : Except String (List Row) :=
  answer.mapM fun row => do return (← row).map Cell.toValue

def fetchRows (engine : Engine σ) (sql : String) : Operation σ (List Row) := do
  rowsOfAnswer (← engine.fetch sql)

def execute (engine : Engine σ) (sql : String) : Session (Connection σ) (List Row) :=
  if returnsRows sql then
    perform sql (engine.fetchRows sql)
  else do
    perform sql (engine.executeBatch sql)
    return []

/-- Closes the connection, which is closed then even if the engine fails to. A closed connection
stays as it is. -/
def disconnect (engine : Engine σ) : Session (Connection σ) Unit := do
  let connection ← get
  if connection.isOpen then
    let (result, state) := engine.close.run.run connection.engine
    set ({ engine := state, isOpen := false } : Connection σ)
    report "" result

def database (engine : Engine σ) : Database (Connection σ) where
  dialect := Dialect.duckDB
  autocommit := true
  defaultSchema := "main"
  execute := engine.execute
  close := engine.disconnect

end Engine

def describe (config : Config) : String :=
  "DuckDb \x7b config: " ++ config.describe ++ ", .. \x7d"

end SqlQuery.DuckDB
