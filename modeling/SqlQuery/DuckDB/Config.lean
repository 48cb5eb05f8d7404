import SqlQuery.Error
import SqlQuery.Text.Escaped

/-!
Where a DuckDB database is: the name of its catalog, and a file or the memory.
-/

namespace SqlQuery.DuckDB

def inMemory : String :=
  ":memory:"

structure Config where
  database : String := "main"
  filepath : String := inMemory
  deriving DecidableEq, Repr

namespace Config

def file (filepath : String) : Config :=
  { filepath }

def ofFields (database filepath : Option String) : Config :=
  { database := database.getD "main", filepath := filepath.getD inMemory }

def isInMemory (config : Config) : Bool :=
  config.filepath == "" || config.filepath == inMemory

def part? (chars : List Char) : Option String :=
  if chars.isEmpty then none else some (.ofList chars)

/-- Reads an address `duckdb://database@file`; without an `@` it is a file. -/
def ofUri (uri : String) : Except Error Config :=
  match "duckdb://".toList.isPrefixOf? uri.toList with
  | none => .error (.badUri uri)
  | some rest =>
      match rest.span (· != '@') with
      | (database, _ :: file) => .ok (ofFields (part? database) (part? file))
      | (file, []) => .ok (ofFields none (part? file))

def json (config : Config) : String :=
  "\x7b\"database\":" ++ Text.jsonString config.database ++
    ",\"filepath\":" ++ Text.jsonString config.filepath ++ "\x7d"

def describe (config : Config) : String :=
  "DuckDbConfig \x7b database: " ++ Text.described config.database ++
    ", filepath: " ++ Text.described config.filepath ++ " \x7d"

end Config

end SqlQuery.DuckDB
