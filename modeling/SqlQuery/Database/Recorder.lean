import SqlQuery.Database

/-!
A database that keeps the statements it is sent. It answers each with their number so far, and can
be told to fail at one of them.
-/

namespace SqlQuery

structure Recorder where
  sent : List String := []
  isClosed : Bool := false
  /-- The statement, counted from one, that fails; none does at zero. -/
  failAt : Nat := 0

namespace Recorder

def execute (sql : String) : Session Recorder (List Row) := do
  let recorder ← get
  if recorder.isClosed then
    throw (.execution sql "closed")
  let sent := recorder.sent ++ [sql]
  set { recorder with sent }
  if sent.length = recorder.failAt then
    throw (.execution sql "scripted failure")
  return [[.int (.ofNat sent.length)]]

def close : Session Recorder Unit :=
  modify fun recorder => { recorder with isClosed := true }

def database (dialect : Dialect) (autocommit : Bool) (defaultSchema : String) :
    Database Recorder where
  dialect := dialect
  autocommit := autocommit
  defaultSchema := defaultSchema
  execute := execute
  close := close

end Recorder

end SqlQuery
