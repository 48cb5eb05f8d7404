import SqlQuery.DuckDB.Script
import SqlQuery.Proofs.Outcome

/-!
The life of a connection. Whatever the engine answers, a connection is open until it is closed for
the first time: until then every statement is one call of the engine, and from then on there are no
calls at all.
-/

namespace SqlQuery

inductive Request where
  | execute (sql : String)
  | query (store : Store) (node : Node) (params : Option Params)
  | close

namespace Database

variable {σ : Type} (db : Database σ)

/-- Closing has no rows to answer with. -/
def serve : Request → Session σ (List Row)
  | .execute sql => db.execute sql
  | .query store node params => db.query store node params
  | .close => do
      db.close
      return []

def after (requests : List Request) (state : σ) : σ :=
  requests.foldl (fun state request => ((db.serve request).outcome state).2) state

/-- The statement that a request comes to, if there is one to run. -/
def statement? : Request → Option String
  | .execute sql => some sql
  | .query store node params =>
      (node.compile store (db.settings params)).toOption.filter (· ≠ "")
  | .close => none

theorem serve_of_statement {request : Request} {sql : String}
    (given : db.statement? request = some sql) : db.serve request = db.execute sql := by
  cases request with
  | execute text =>
      cases given
      rfl
  | close => cases given
  | query store node params =>
      obtain ⟨compiled, nonempty⟩ := Option.filter_eq_some_iff.mp given
      rw [serve, query]
      cases written : node.compile store (db.settings params) with
      | error e => simp [written, Except.toOption] at compiled
      | ok text =>
          simp only [written, Except.toOption, Option.some.injEq] at compiled
          subst compiled
          exact if_neg (by simpa using nonempty)

/-- A node without a text, or with an empty one, does not reach the database. -/
theorem serve_of_no_statement {request : Request} (none : db.statement? request = none)
    (stays : request ≠ .close) (state : σ) : ((db.serve request).outcome state).2 = state := by
  cases request with
  | execute text => cases none
  | close => exact absurd rfl stays
  | query store node params =>
      rw [serve, query]
      cases written : node.compile store (db.settings params) with
      | error e => rfl
      | ok text =>
          have empty : text = "" := by
            simpa [statement?, written, Except.toOption, Option.filter] using none
          change ((db.run text).outcome state).2 = state
          rw [run, if_pos empty]
          rfl

theorem serve_close {state next : σ} {done : Except Error Unit}
    (closed : db.close.outcome state = (done, next)) :
    ((db.serve .close).outcome state).2 = next := by
  cases done with
  | error e => exact congrArg Prod.snd (ExceptT.outcome_bind_of_error closed)
  | ok _ => exact congrArg Prod.snd (ExceptT.outcome_bind_of_ok closed)

end Database

namespace DuckDB

theorem returnsRows_eq (sql : String) :
    returnsRows sql =
      ["SELECT", "WITH", "EXPLAIN", "VALUES", "SHOW", "DESCRIBE", "PRAGMA"].any fun word =>
        word.toList.isPrefixOf ((sql.toList.dropWhile Text.isBlank).map Char.toUpper) := by
  simp [returnsRows, Text.trimStart, String.toList_map]

/-! One operation on a connection, for any engine. -/

namespace Engine

variable {σ α : Type} {connection : Connection σ} (engine : Engine σ)

theorem perform_of_closed (closed : connection.isOpen = false) (sql : String)
    (operation : Operation σ α) :
    (perform sql operation).outcome connection =
      (.error (.execution sql "connection is closed"), connection) := by
  obtain ⟨state, isOpen⟩ := connection
  cases closed
  rfl

theorem perform_of_open {state next : σ} {result : Except String α} {operation : Operation σ α}
    (performed : operation.outcome state = (result, next)) (sql : String) :
    (perform sql operation).outcome ⟨state, true⟩ =
      (result.mapError (Error.execution sql), ⟨next, true⟩) := by
  change (report sql (operation.outcome state).1).outcome ⟨(operation.outcome state).2, true⟩ = _
  rw [performed]
  cases result with
  | error reason => rfl
  | ok a => rfl

theorem execute_of_closed (closed : connection.isOpen = false) (sql : String) :
    (engine.execute sql).outcome connection =
      (.error (.execution sql "connection is closed"), connection) := by
  unfold execute
  split
  · exact perform_of_closed closed sql _
  · exact ExceptT.outcome_bind_of_error (perform_of_closed closed sql _)

theorem disconnect_of_closed (closed : connection.isOpen = false) :
    engine.disconnect.outcome connection = (.ok (), connection) := by
  obtain ⟨state, isOpen⟩ := connection
  cases closed
  rfl

theorem execute_of_rows {state next : σ} {sql : String} {result : Except String (List Row)}
    (answers : returnsRows sql = true)
    (fetched : (engine.fetchRows sql).outcome state = (result, next)) :
    (engine.execute sql).outcome ⟨state, true⟩ =
      (result.mapError (Error.execution sql), ⟨next, true⟩) := by
  rw [execute, if_pos answers]
  exact perform_of_open fetched sql

theorem execute_of_no_rows {state next : σ} {sql : String} {result : Except String Unit}
    (silent : ¬ returnsRows sql = true)
    (executed : (engine.executeBatch sql).outcome state = (result, next)) :
    (engine.execute sql).outcome ⟨state, true⟩ =
      ((result.map fun _ => []).mapError (Error.execution sql), ⟨next, true⟩) := by
  rw [execute, if_neg silent]
  have performed := perform_of_open executed sql
  cases result with
  | error reason => exact ExceptT.outcome_bind_of_error performed
  | ok _ => exact ExceptT.outcome_bind_of_ok performed

theorem disconnect_of_open {state next : σ} {result : Except String Unit}
    (closed : engine.close.outcome state = (result, next)) :
    engine.disconnect.outcome ⟨state, true⟩ =
      (result.mapError (Error.execution ""), ⟨next, false⟩) := by
  change (report "" (engine.close.outcome state).1).outcome
    ⟨(engine.close.outcome state).2, false⟩ = _
  rw [closed]
  cases result with
  | error reason => rfl
  | ok _ => rfl

end Engine

/-! What a reply says about a statement. -/

def rowFailure? : Except String (List Cell) → Option String
  | .error reason => some reason
  | .ok _ => none

namespace Reply

/-- The reason why a statement fails. Of several reasons it is the one that is met first: a row is
read after all rows before it. -/
def failure? (reply : Reply) (sql : String) : Option String :=
  if returnsRows sql then
    reply.prepareError.or (reply.queryError.or (reply.rows.findSome? rowFailure?))
  else
    reply.batchError

def answer (reply : Reply) (sql : String) : List Row :=
  if returnsRows sql then
    (reply.rows.filterMap Except.toOption).map (·.map Cell.toValue)
  else
    []

def result (reply : Reply) (sql : String) : Except String (List Row) :=
  match reply.failure? sql with
  | some reason => .error reason
  | none => .ok (reply.answer sql)

end Reply

theorem rowsOfAnswer_of_failure {answer : List (Except String (List Cell))} {reason : String}
    (fails : answer.findSome? rowFailure? = some reason) :
    Engine.rowsOfAnswer answer = .error reason := by
  induction answer with
  | nil => cases fails
  | cons row rest ih =>
      cases row with
      | error other =>
          cases fails
          rfl
      | ok cells =>
          have later : Engine.rowsOfAnswer rest = .error reason := ih fails
          rw [Engine.rowsOfAnswer, List.mapM_cons, ← Engine.rowsOfAnswer, later]
          rfl

theorem rowsOfAnswer_of_no_failure {answer : List (Except String (List Cell))}
    (reads : answer.findSome? rowFailure? = none) :
    Engine.rowsOfAnswer answer =
      .ok ((answer.filterMap Except.toOption).map (·.map Cell.toValue)) := by
  induction answer with
  | nil => rfl
  | cons row rest ih =>
      cases row with
      | error reason => cases reads
      | ok cells =>
          have later := ih reads
          rw [Engine.rowsOfAnswer, List.mapM_cons, ← Engine.rowsOfAnswer, later]
          rfl

/-! An engine that follows a script. -/

def Call.ofOpening (config : Config) : Call :=
  if config.isInMemory then .openInMemory else .openFile config.filepath

def Call.ofStatement (sql : String) : Call :=
  if returnsRows sql then .prepare sql else .executeBatch sql

namespace Script

def reply (script : Script) : Reply :=
  script.replies.headD {}

def asked (script : Script) (call : Call) : Script :=
  { script with record := script.record ++ [call] }

/-- The script after a statement, which takes a reply. -/
def told (script : Script) (sql : String) : Script :=
  { script.asked (.ofStatement sql) with replies := script.replies.tail }

def failed : Option String → Except String Unit
  | some reason => .error reason
  | none => .ok ()

theorem failWith_outcome (reason : Option String) (script : Script) :
    (failWith reason).outcome script = (failed reason, script) := by
  cases reason with
  | none => rfl
  | some reason => rfl

theorem connect_outcome (config : Config) (script : Script) :
    (engine.connect config).outcome script =
      ((failed script.openError).mapError .connectionRefused,
        script.asked (.ofOpening config)) := by
  have opened : (if config.isInMemory then engine.openInMemory
      else engine.openFile config.filepath).outcome script =
        (failed script.openError, script.asked (.ofOpening config)) := by
    unfold Call.ofOpening
    split
    · exact failWith_outcome script.openError _
    · exact failWith_outcome script.openError _
  rw [Engine.connect, ExceptT.outcome_adapt, opened]

theorem fetchRows_outcome {sql : String} (answers : returnsRows sql = true) (script : Script) :
    (engine.fetchRows sql).outcome script = (script.reply.result sql, script.told sql) := by
  have told : { script.asked (.prepare sql) with replies := script.replies.tail } =
      script.told sql := by
    rw [told, Call.ofStatement, if_pos answers]
  have fetched : engine.fetchRows sql = (do
      log (.prepare sql)
      let reply ← nextReply
      failWith reply.prepareError
      failWith reply.queryError
      Engine.rowsOfAnswer reply.rows) := by
    simp only [Engine.fetchRows, engine, bind_assoc, pure_bind]
  rw [Reply.result, Reply.failure?, if_pos answers, Reply.answer, if_pos answers, ← told, fetched]
  change (do
      failWith script.reply.prepareError
      failWith script.reply.queryError
      (liftM (Engine.rowsOfAnswer script.reply.rows) : Operation Script _)).outcome _ = _
  cases prepared : script.reply.prepareError with
  | some reason => exact ExceptT.outcome_bind_of_error rfl
  | none =>
      rw [ExceptT.outcome_bind_of_ok (failWith_outcome none _)]
      cases queried : script.reply.queryError with
      | some reason => exact ExceptT.outcome_bind_of_error rfl
      | none =>
          rw [ExceptT.outcome_bind_of_ok (failWith_outcome none _), ExceptT.outcome_lift]
          cases read : script.reply.rows.findSome? rowFailure? with
          | some reason => rw [rowsOfAnswer_of_failure read]; rfl
          | none => rw [rowsOfAnswer_of_no_failure read]; rfl

theorem executeBatch_outcome {sql : String} (silent : ¬ returnsRows sql = true) (script : Script) :
    ∃ done, (engine.executeBatch sql).outcome script = (done, script.told sql) ∧
      (done.map fun _ => []) = script.reply.result sql := by
  have told : { script.asked (.executeBatch sql) with replies := script.replies.tail } =
      script.told sql := by
    rw [told, Call.ofStatement, if_neg silent]
  rw [Reply.result, Reply.failure?, if_neg silent, Reply.answer, if_neg silent, ← told]
  refine ⟨_, failWith_outcome script.reply.batchError _, ?_⟩
  cases script.reply.batchError with
  | none => rfl
  | some reason => rfl

theorem execute_of_open (script : Script) (sql : String) :
    (engine.execute sql).outcome ⟨script, true⟩ =
      ((script.reply.result sql).mapError (.execution sql), ⟨script.told sql, true⟩) := by
  by_cases answers : returnsRows sql = true
  · exact engine.execute_of_rows answers (fetchRows_outcome answers script)
  · obtain ⟨done, executed, same⟩ := executeBatch_outcome answers script
    rw [engine.execute_of_no_rows answers executed, same]

theorem disconnect_of_open (script : Script) :
    engine.disconnect.outcome ⟨script, true⟩ =
      ((failed script.closeError).mapError (.execution ""), ⟨script.asked .close, false⟩) :=
  engine.disconnect_of_open (failWith_outcome script.closeError _)

/-! A connection over the engine. -/

def database : Database (Connection Script) :=
  engine.database

/-- The calls that requests lead to on an open connection. -/
def calls : List Request → List Call
  | [] => []
  | .close :: _ => [.close]
  | request :: rest => (database.statement? request).toList.map Call.ofStatement ++ calls rest

theorem calls_close (requests : List Request) : calls (.close :: requests) = [.close] := by
  rw [calls]

theorem calls_cons {request : Request} (stays : request ≠ .close) (rest : List Request) :
    calls (request :: rest) =
      (database.statement? request).toList.map Call.ofStatement ++ calls rest := by
  rw [calls]
  exact stays

theorem ofStatement_ne_close (sql : String) : Call.ofStatement sql ≠ .close := by
  unfold Call.ofStatement
  split
  · nofun
  · nofun

theorem last_of_calls {requests : List Request} {front back : List Call}
    (split : calls requests = front ++ .close :: back) : .close ∉ front ∧ back = [] := by
  induction requests generalizing front with
  | nil => simp [calls] at split
  | cons request rest ih =>
      by_cases closes : request = .close
      · subst closes
        rw [calls_close] at split
        obtain ⟨rfl, same⟩ := List.singleton_eq_append_iff.mp split |>.resolve_right nofun
        exact ⟨List.not_mem_nil, (List.cons.inj same).2⟩
      · rw [calls_cons closes] at split
        cases given : database.statement? request with
        | none =>
            rw [given] at split
            exact ih split
        | some sql =>
            rw [given] at split
            cases front with
            | nil => exact absurd (List.cons.inj split).1 (ofStatement_ne_close sql)
            | cons call front =>
                obtain ⟨rfl, later⟩ := List.cons.inj split
                obtain ⟨first, last⟩ := ih later
                have apart := (ofStatement_ne_close sql).symm
                exact ⟨List.not_mem_cons_of_ne_of_not_mem apart first, last⟩

theorem serve_of_closed {connection : Connection Script} (closed : connection.isOpen = false)
    (request : Request) : ((database.serve request).outcome connection).2 = connection := by
  by_cases closes : request = .close
  · subst closes
    exact database.serve_close (engine.disconnect_of_closed closed)
  · cases given : database.statement? request with
    | none => exact database.serve_of_no_statement given closes _
    | some sql =>
        rw [database.serve_of_statement given]
        exact congrArg Prod.snd (engine.execute_of_closed closed sql)

theorem after_of_closed {connection : Connection Script} (closed : connection.isOpen = false)
    (requests : List Request) : database.after requests connection = connection := by
  induction requests with
  | nil => rfl
  | cons request rest ih =>
      rw [Database.after, List.foldl_cons, serve_of_closed closed]
      exact ih

/-- On an open connection a request makes the call for its statement, and nothing else happens. -/
theorem serve_of_open (script : Script) {request : Request} (stays : request ≠ .close) :
    ∃ next : Script, ((database.serve request).outcome ⟨script, true⟩).2 = ⟨next, true⟩ ∧
      next.record =
        script.record ++ (database.statement? request).toList.map Call.ofStatement := by
  cases given : database.statement? request with
  | none =>
      refine ⟨script, database.serve_of_no_statement given stays _, ?_⟩
      simp
  | some sql =>
      rw [database.serve_of_statement given]
      refine ⟨script.told sql, congrArg Prod.snd (execute_of_open script sql), ?_⟩
      rfl

theorem after_of_open (script : Script) (requests : List Request) :
    (database.after requests ⟨script, true⟩).engine.record = script.record ++ calls requests ∧
      ((database.after requests ⟨script, true⟩).isOpen = true ↔ .close ∉ requests) := by
  induction requests generalizing script with
  | nil => simp [Database.after, calls]
  | cons request rest ih =>
      by_cases closes : request = .close
      · subst closes
        rw [Database.after, List.foldl_cons, database.serve_close (disconnect_of_open script),
          ← Database.after, after_of_closed rfl, calls_close]
        simp [asked]
      · obtain ⟨next, served, record⟩ := serve_of_open script closes
        obtain ⟨later, isOpen⟩ := ih next
        rw [Database.after, List.foldl_cons, served, ← Database.after]
        rw [later, record, calls_cons closes, List.append_assoc, isOpen]
        simp [Ne.symm closes]

/-- The life of a connection over any script, after any requests. Its engine was called to open it,
for each statement before the first close, for that close, and not again. While it is open, a
statement is one more call; the answer is the reply of the script, and the connection stays open
even if that is a failure. Once it was closed it answers by itself. A commit never reaches it. -/
theorem lifeCycle {config : Config} {script fresh : Script}
    (opened : (engine.connect config).outcome script = (.ok (), fresh)) (past : List Request) :
    let connection := database.after past ⟨fresh, true⟩
    (connection.engine.record = script.record ++ .ofOpening config :: calls past ∧
      ∀ front back, calls past = front ++ .close :: back → .close ∉ front ∧ back = []) ∧
    (.close ∉ past →
      (∀ sql, (database.execute sql).outcome connection =
        ((connection.engine.reply.result sql).mapError (.execution sql),
          ⟨connection.engine.told sql, true⟩)) ∧
      database.close.outcome connection =
        ((failed connection.engine.closeError).mapError (.execution ""),
          ⟨connection.engine.asked .close, false⟩)) ∧
    (.close ∈ past →
      (∀ sql, (database.execute sql).outcome connection =
        (.error (.execution sql "connection is closed"), connection)) ∧
      database.close.outcome connection = (.ok (), connection)) ∧
    ∀ store params, (database.query store (.statement .commit) params).outcome connection =
      (.ok [], connection) := by
  intro connection
  obtain ⟨record, isOpen⟩ := after_of_open fresh past
  have first : fresh.record = script.record ++ [.ofOpening config] := by
    rw [connect_outcome] at opened
    exact congrArg Script.record (Prod.mk.inj opened).2.symm
  rw [first, List.append_assoc, List.singleton_append] at record
  refine ⟨⟨record, fun front back => last_of_calls⟩, ?_, ?_, ?_⟩
  · intro stays
    have same : connection = ⟨connection.engine, true⟩ :=
      congrArg (Connection.mk connection.engine) (isOpen.mpr stays)
    rw [same]
    exact ⟨execute_of_open connection.engine, disconnect_of_open connection.engine⟩
  · intro closes
    have closed : connection.isOpen = false :=
      Bool.eq_false_iff.mpr fun stays => isOpen.mp stays closes
    exact ⟨engine.execute_of_closed closed, engine.disconnect_of_closed closed⟩
  · intro store params
    rfl

/-- The second statement fails after a row, and closing fails too. -/
def failing : Script where
  closeError := some "busy"
  replies := [{}, { rows := [.ok [.text "paid"], .error "disk"] }]

theorem lifeCycle_of_failing :
    let fresh := failing.asked .openInMemory
    let connection := database.after [.execute "SELECT 1"] ⟨fresh, true⟩
    let closed := database.after [.execute "SELECT 1", .close] ⟨fresh, true⟩
    (engine.connect {}).outcome failing = (.ok (), fresh) ∧
      (database.execute "SELECT 2").outcome connection =
        (.error (.execution "SELECT 2" "disk"), ⟨connection.engine.told "SELECT 2", true⟩) ∧
      closed.engine.record = [.openInMemory, .prepare "SELECT 1", .close] ∧
      (database.execute "SELECT 2").outcome closed =
        (.error (.execution "SELECT 2" "connection is closed"), closed) := by
  intro fresh connection closed
  have opened : (engine.connect {}).outcome failing = (.ok (), fresh) := connect_outcome {} failing
  have first : returnsRows "SELECT 1" = true := by
    rw [returnsRows_eq]
    decide
  have second : returnsRows "SELECT 2" = true := by
    rw [returnsRows_eq]
    decide
  obtain ⟨-, whileOpen, -⟩ := lifeCycle opened [.execute "SELECT 1"]
  obtain ⟨⟨record, -⟩, -, onceClosed, -⟩ := lifeCycle opened [.execute "SELECT 1", .close]
  refine ⟨opened, ?_, ?_, (onceClosed (by simp)).1 "SELECT 2"⟩
  · rw [(whileOpen (by simp)).1 "SELECT 2"]
    have reached : connection = ⟨fresh.told "SELECT 1", true⟩ :=
      congrArg Prod.snd (execute_of_open fresh "SELECT 1")
    have fails : connection.engine.reply.result "SELECT 2" = .error "disk" := by
      simp only [reached, Reply.result, Reply.failure?, second]
      rfl
    rw [fails]
    rfl
  · have inMemory : Call.ofOpening {} = .openInMemory := rfl
    rw [record, inMemory]
    simp [calls, Database.statement?, Call.ofStatement, first, failing]

end Script

end DuckDB

end SqlQuery
