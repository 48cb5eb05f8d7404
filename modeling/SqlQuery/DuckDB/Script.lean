import SqlQuery.DuckDB.Connection

/-!
An engine that answers from a script and keeps a record of what it was asked.
-/

namespace SqlQuery.DuckDB

structure Reply where
  prepareError : Option String := none
  queryError : Option String := none
  batchError : Option String := none
  rows : List (Except String (List Cell)) := []

inductive Call where
  | openInMemory
  | openFile (path : String)
  | prepare (sql : String)
  | executeBatch (sql : String)
  | close
  deriving DecidableEq, Repr

def Call.describe : Call → String
  | .openInMemory => "open_in_memory"
  | .openFile path => "open " ++ path
  | .prepare sql => "prepare " ++ sql
  | .executeBatch sql => "execute_batch " ++ sql
  | .close => "close"

structure Script where
  openError : Option String := none
  closeError : Option String := none
  replies : List Reply := []
  record : List Call := []

namespace Script

def log (call : Call) : Operation Script Unit :=
  modify fun script => { script with record := script.record ++ [call] }

def failWith (reason : Option String) : Operation Script Unit :=
  match reason with
  | some reason => throw reason
  | none => return ()

/-- The next reply, an empty one when none is left. -/
def nextReply : Operation Script Reply := do
  let script ← get
  set { script with replies := script.replies.tail }
  return script.replies.headD {}

def engine : Engine Script where
  openInMemory := do
    log .openInMemory
    failWith (← get).openError
  openFile path := do
    log (.openFile path)
    failWith (← get).openError
  fetch sql := do
    log (.prepare sql)
    let reply ← nextReply
    failWith reply.prepareError
    failWith reply.queryError
    return reply.rows
  executeBatch sql := do
    log (.executeBatch sql)
    failWith (← nextReply).batchError
  close := do
    log .close
    failWith (← get).closeError

end Script

end SqlQuery.DuckDB
