import Mathlib.Data.List.Forall2
import SqlQuery.Database.Recorder
import SqlQuery.Dialect.DuckDB
import SqlQuery.Proofs.Outcome
import SqlQuery.Proofs.Render.Outcome

/-!
Inserts in batches. The statements that reach a database are seen by one that keeps them and passes
them on. Main statement: they are the inserts of consecutive batches of the rows, all of them if
none fails, and else those up to the first that fails.
-/

namespace SqlQuery

/-- Consecutive pieces of a list, each of the given size except the last, which may be smaller. -/
structure InPieces {α : Type} (size : Nat) (items : List α) (pieces : List (List α)) : Prop where
  flatten : pieces.flatten = items
  full : ∀ piece ∈ pieces.dropLast, piece.length = size
  last : ∀ piece, pieces.getLast? = some piece → 0 < piece.length ∧ piece.length ≤ size

namespace InPieces

variable {α : Type} {size : Nat} {items : List α} {pieces : List (List α)}

theorem nil : InPieces size ([] : List α) [] where
  flatten := rfl
  full := List.forall_mem_nil _
  last _ isLast := by cases isLast

theorem ne_nil (split : InPieces size items pieces) (some_piece : pieces ≠ []) : items ≠ [] := by
  intro empty
  have all_empty := List.flatten_eq_nil_iff.mp (split.flatten.trans empty)
  have last := split.last _ (List.getLast?_eq_some_getLast some_piece)
  rw [all_empty _ (List.getLast_mem some_piece)] at last
  exact absurd last.1 (Nat.lt_irrefl 0)

theorem cons (positive : 0 < size) (nonempty : items ≠ [])
    (rest : InPieces size (items.drop size) pieces) :
    InPieces size items (items.take size :: pieces) := by
  have flatten : (items.take size :: pieces).flatten = items := by
    rw [List.flatten_cons, rest.flatten, List.take_append_drop]
  cases pieces with
  | nil =>
      refine ⟨flatten, List.forall_mem_nil _, ?_⟩
      intro piece isLast
      obtain rfl : items.take size = piece := Option.some.inj isLast
      have := List.length_pos_iff.mpr nonempty
      rw [List.length_take]
      omega
  | cons next pieces =>
      refine ⟨flatten, ?_, ?_⟩
      · -- Only the last piece may be smaller, and items are left after this one.
        have left := List.length_pos_iff.mpr (rest.ne_nil (List.cons_ne_nil next pieces))
        rw [List.length_drop] at left
        rw [List.dropLast_cons_cons, List.forall_mem_cons, List.length_take]
        exact ⟨by omega, rest.full⟩
      · intro piece isLast
        rw [List.getLast?_cons_cons] at isLast
        exact rest.last piece isLast

end InPieces

theorem chunksWithin_inPieces {α : Type} {size : Nat} (positive : 0 < size) (fuel : Nat)
    (items : List α) (enough : items.length ≤ fuel) :
    InPieces size items (chunksWithin size fuel items) := by
  induction fuel generalizing items with
  | zero =>
      rw [List.length_eq_zero_iff.mp (Nat.le_zero.mp enough)]
      exact .nil
  | succ fuel ih =>
      cases items with
      | nil => exact .nil
      | cons item items =>
          refine .cons positive (List.cons_ne_nil item items) (ih _ ?_)
          rw [List.length_drop]
          omega

/-! The statement of a batch. -/

namespace Table

def insertText (settings : Settings) (t : Table) (columns : Option (List String))
    (rows : List Row) : String :=
  "INSERT INTO " ++ tableText settings.context t ++
    columns.elim "" (fun names =>
      "(" ++ ", ".intercalate (names.map settings.context.quote) ++ ")") ++
    " " ++ settings.dialect.constantRows rows

theorem compile_insertRows (store : Store) (settings : Settings) (t : Table)
    (rows : List Row) (columns : Option (List String)) :
    (Node.statement (.insert (t.insertRows rows columns))).compile store settings =
      .ok (t.insertText settings columns rows) := by
  cases columns with
  | none => rfl
  | some names => rfl

theorem insertText_ne_empty (settings : Settings) (t : Table) (columns : Option (List String))
    (rows : List Row) : t.insertText settings columns rows ≠ "" := by
  simp [insertText]

end Table

namespace Database

variable {σ : Type} (db : Database σ)

/-- The statements run one after the other, and none of them fails. -/
inductive Runs : σ → List String → σ → Prop
  | nil (state : σ) : Runs state [] state
  | cons {state next final : σ} {sql : String} {answer : List Row} {rest : List String} :
      (db.execute sql).outcome state = (.ok answer, next) → Runs next rest final →
        Runs state (sql :: rest) final

theorem runs_cons {state final : σ} {sql : String} {rest : List String} :
    db.Runs state (sql :: rest) final ↔
      ∃ answer next, (db.execute sql).outcome state = (.ok answer, next) ∧
        db.Runs next rest final := by
  constructor
  · intro ran
    cases ran with
    | cons passed others => exact ⟨_, _, passed, others⟩
  · intro ran
    obtain ⟨answer, next, passed, others⟩ := ran
    exact .cons passed others

def sendAll (statements : List String) : Session σ Unit :=
  statements.forM fun sql => discard (db.execute sql)

theorem sendAll_eq_ok {state final : σ} {statements : List String} :
    (db.sendAll statements).outcome state = (.ok (), final) ↔ db.Runs state statements final := by
  induction statements generalizing state with
  | nil =>
      constructor
      · intro sent
        cases sent
        exact .nil _
      · intro ran
        cases ran
        rfl
  | cons sql rest ih =>
      rw [sendAll, ExceptT.outcome_forM_cons_eq_ok, runs_cons]
      constructor
      · intro sent
        obtain ⟨next, passed, others⟩ := sent
        obtain ⟨answer, passed⟩ := ExceptT.outcome_discard_eq_ok.mp passed
        exact ⟨answer, next, passed, ih.mp others⟩
      · intro ran
        obtain ⟨answer, next, passed, others⟩ := ran
        exact ⟨next, ExceptT.outcome_discard_eq_ok.mpr ⟨answer, passed⟩, ih.mpr others⟩

/-- The statement that fails is given by the number of those before it. -/
def FailsAt (state : σ) (statements : List String) (k : Nat) (e : Error) (final : σ) : Prop :=
  ∃ sql middle, statements[k]? = some sql ∧ db.Runs state (statements.take k) middle ∧
    (db.execute sql).outcome middle = (.error e, final)

theorem sendAll_eq_error {state final : σ} {statements : List String} {e : Error} :
    (db.sendAll statements).outcome state = (.error e, final) ↔
      ∃ k, db.FailsAt state statements k e final := by
  rw [sendAll, ExceptT.outcome_forM_eq_error]
  constructor
  · intro failed
    obtain ⟨done, sql, rest, middle, rfl, passed, failed⟩ := failed
    refine ⟨done.length, sql, middle, by simp, ?_, ExceptT.outcome_discard_eq_error.mp failed⟩
    rw [List.take_left]
    exact db.sendAll_eq_ok.mp passed
  · intro failed
    obtain ⟨k, sql, middle, found, ran, failed⟩ := failed
    obtain ⟨inside, rfl⟩ := List.getElem?_eq_some_iff.mp found
    refine ⟨statements.take k, statements[k], statements.drop (k + 1), middle, ?_,
      db.sendAll_eq_ok.mpr ran, ExceptT.outcome_discard_eq_error.mpr failed⟩
    rw [← List.drop_eq_getElem_cons inside, List.take_append_drop]

theorem query_insertRows (store : Store) (t : Table) (rows : List Row)
    (columns : Option (List String)) :
    db.query store (.statement (.insert (t.insertRows rows columns))) none =
      db.execute (t.insertText (db.settings none) columns rows) := by
  rw [query, Table.compile_insertRows]
  change db.run (t.insertText (db.settings none) columns rows) = _
  rw [run, if_neg (Table.insertText_ne_empty _ t columns rows)]

/-- The statements for all batches. -/
def batchTexts (t : Table) (rows : List Row) (columns : Option (List String)) (size : Nat) :
    List String :=
  (chunks size rows).map (t.insertText (db.settings none) columns)

theorem insertInBatches_eq_sendAll (store : Store) (t : Table) (rows : List Row)
    (columns : Option (List String)) {size : Nat} (positive : 0 < size) :
    db.insertInBatches store t rows columns size =
      db.sendAll (db.batchTexts t rows columns size) := by
  rw [insertInBatches, if_neg (Nat.ne_of_gt positive), sendAll, batchTexts]
  induction chunks size rows with
  | nil => rfl
  | cons batch batches ih =>
      rw [List.map_cons, List.forM, List.forM, ih, query_insertRows]

/-! A database that keeps what it is sent. -/

def traced : Database (σ × List String) where
  dialect := db.dialect
  autocommit := db.autocommit
  defaultSchema := db.defaultSchema
  execute sql := ExceptT.mk fun state =>
    (((db.execute sql).outcome state.1).1, ((db.execute sql).outcome state.1).2, state.2 ++ [sql])
  close := ExceptT.mk fun state =>
    ((db.close.outcome state.1).1, (db.close.outcome state.1).2, state.2)

theorem traced_execute {state final : σ} {sent sent' : List String} {sql : String}
    {answer : Except Error (List Row)} :
    (db.traced.execute sql).outcome (state, sent) = (answer, final, sent') ↔
      (db.execute sql).outcome state = (answer, final) ∧ sent' = sent ++ [sql] := by
  change (((db.execute sql).outcome state).1, ((db.execute sql).outcome state).2, sent ++ [sql]) =
    (answer, final, sent') ↔ _
  rw [Prod.mk.injEq, Prod.mk.injEq, Prod.ext_iff, and_assoc, eq_comm (a := sent')]

theorem traced_runs {state final : σ} {sent sent' statements : List String} :
    db.traced.Runs (state, sent) statements (final, sent') ↔
      db.Runs state statements final ∧ sent' = sent ++ statements := by
  induction statements generalizing state sent with
  | nil =>
      rw [List.append_nil]
      constructor
      · intro ran
        cases ran
        exact ⟨.nil _, rfl⟩
      · intro ran
        obtain ⟨⟨⟩, rfl⟩ := ran
        exact .nil _
  | cons sql rest ih =>
      rw [runs_cons, runs_cons]
      constructor
      · intro ran
        obtain ⟨answer, ⟨next, between⟩, kept, keptOthers⟩ := ran
        obtain ⟨passed, rfl⟩ := db.traced_execute.mp kept
        obtain ⟨others, rfl⟩ := ih.mp keptOthers
        exact ⟨⟨answer, next, passed, others⟩, List.append_assoc sent [sql] rest⟩
      · intro ran
        obtain ⟨⟨answer, next, passed, others⟩, rfl⟩ := ran
        exact ⟨answer, (next, sent ++ [sql]), db.traced_execute.mpr ⟨passed, rfl⟩,
          ih.mpr ⟨others, (List.append_assoc sent [sql] rest).symm⟩⟩

theorem traced_failsAt {state final : σ} {sent sent' statements : List String} {k : Nat}
    {e : Error} :
    db.traced.FailsAt (state, sent) statements k e (final, sent') ↔
      db.FailsAt state statements k e final ∧ sent' = sent ++ statements.take (k + 1) := by
  have first {sql : String} (found : statements[k]? = some sql) :
      sent ++ statements.take (k + 1) = sent ++ statements.take k ++ [sql] := by
    rw [List.take_add_one, found, List.append_assoc]
    rfl
  constructor
  · intro failed
    obtain ⟨sql, ⟨middle, between⟩, found, keptBefore, kept⟩ := failed
    obtain ⟨ran, rfl⟩ := db.traced_runs.mp keptBefore
    obtain ⟨failed, rfl⟩ := db.traced_execute.mp kept
    exact ⟨⟨sql, middle, found, ran, failed⟩, (first found).symm⟩
  · intro failed
    obtain ⟨⟨sql, middle, found, ran, failed⟩, rfl⟩ := failed
    exact ⟨sql, (middle, sent ++ statements.take k), found, db.traced_runs.mpr ⟨ran, rfl⟩,
      db.traced_execute.mpr ⟨failed, first found⟩⟩

/-- What an insert in batches comes to, with the statements that were sent for it. -/
def batchOutcome (store : Store) (t : Table) (rows : List Row) (columns : Option (List String))
    (size : Nat) (state : σ) : Except Error Unit × σ × List String :=
  (db.traced.insertInBatches store t rows columns size).outcome (state, [])

section

variable {db} {store : Store} {t : Table} {rows : List Row} {columns : Option (List String)}
  {size : Nat} {state final : σ} {sent : List String} {e : Error}

theorem batchOutcome_eq_ok (positive : 0 < size) :
    db.batchOutcome store t rows columns size state = (.ok (), final, sent) ↔
      db.Runs state (db.batchTexts t rows columns size) final ∧
        sent = db.batchTexts t rows columns size := by
  rw [batchOutcome, insertInBatches_eq_sendAll _ _ _ _ _ positive, sendAll_eq_ok, traced_runs]
  rfl

theorem batchOutcome_eq_error (positive : 0 < size) :
    db.batchOutcome store t rows columns size state = (.error e, final, sent) ↔
      ∃ k, db.FailsAt state (db.batchTexts t rows columns size) k e final ∧
        sent = (db.batchTexts t rows columns size).take (k + 1) := by
  rw [batchOutcome, insertInBatches_eq_sendAll _ _ _ _ _ positive, sendAll_eq_error]
  simp only [traced_failsAt, List.nil_append]
  rfl

theorem batchOutcome_of_zero :
    db.batchOutcome store t rows columns 0 state = (.error .zeroBatchSize, state, []) := rfl

/-- Keeping the statements changes nothing else. -/
theorem map_batchOutcome :
    (db.batchOutcome store t rows columns size state).map id Prod.fst =
      (db.insertInBatches store t rows columns size).outcome state := by
  obtain rfl | positive := Nat.eq_zero_or_pos size
  · rfl
  rw [insertInBatches_eq_sendAll _ _ _ _ _ positive]
  rcases whole : db.batchOutcome store t rows columns size state with ⟨e | ⟨⟩, final, sent⟩
  · obtain ⟨k, failed, -⟩ := (batchOutcome_eq_error positive).mp whole
    exact (db.sendAll_eq_error.mpr ⟨k, failed⟩).symm
  · exact (db.sendAll_eq_ok.mpr ((batchOutcome_eq_ok positive).mp whole).1).symm

theorem batchOutcome_of_no_rows :
    (db.batchOutcome store t [] columns size state).2 = (state, []) := by
  cases size with
  | zero => rfl
  | succ size => rfl

end

theorem batches_up_to_failure (store : Store) (t : Table) (rows : List Row)
    (columns : Option (List String)) (size : Nat) (state : σ) :
    (db.batchOutcome store t rows columns size state).map id Prod.fst =
      (db.insertInBatches store t rows columns size).outcome state ∧
    (size = 0 → db.batchOutcome store t rows columns size state =
      (.error .zeroBatchSize, state, []) ∧ Error.zeroBatchSize.kind = .builder) ∧
    (rows = [] → (db.batchOutcome store t rows columns size state).2 = (state, [])) ∧
    (0 < size → InPieces size rows (chunks size rows) ∧
      ∃ statements, List.Forall₂ (fun batch sql =>
          (Node.statement (.insert (t.insertRows batch columns))).compile store
            (db.settings none) = .ok sql) (chunks size rows) statements ∧
        (∀ final sent, db.batchOutcome store t rows columns size state = (.ok (), final, sent) ↔
          db.Runs state statements final ∧ sent = statements) ∧
        ∀ e final sent, db.batchOutcome store t rows columns size state = (.error e, final, sent) ↔
          ∃ k, db.FailsAt state statements k e final ∧ sent = statements.take (k + 1)) := by
  refine ⟨map_batchOutcome, ?_, ?_, ?_⟩
  · intro zero
    subst zero
    exact ⟨batchOutcome_of_zero, rfl⟩
  · intro empty
    subst empty
    exact batchOutcome_of_no_rows
  · intro positive
    refine ⟨chunksWithin_inPieces positive _ rows (Nat.le_refl _),
      db.batchTexts t rows columns size, ?_,
      fun _ _ => batchOutcome_eq_ok positive, fun _ _ _ => batchOutcome_eq_error positive⟩
    rw [batchTexts, List.forall₂_map_right_iff, List.forall₂_same]
    intro batch _
    exact t.compile_insertRows store _ batch columns

end Database

namespace FiveOrders

def recording : Database Recorder :=
  Recorder.database .duckDB true "main"

def table : Table := ⟨⟨0⟩, .orders, none⟩

def rows : List Row :=
  [[.int 1], [.int 2], [.int 3], [.int 4], [.int 5]]

/-- The second statement fails. -/
def failing : Recorder := { failAt := 2 }

def statement (batch : List Row) : String :=
  table.insertText (recording.settings none) none batch

end FiveOrders

open FiveOrders in
/-- The last of the three batches of five orders is not sent after the second has failed. -/
theorem batches_up_to_failure_of_five_orders :
    0 < 2 ∧ chunks 2 rows = [rows.take 2, (rows.drop 2).take 2, rows.drop 4] ∧
      recording.batchOutcome {} table rows none 2 failing =
        (.error (.execution (statement ((rows.drop 2).take 2)) "scripted failure"),
          { failing with sent := [statement (rows.take 2), statement ((rows.drop 2).take 2)] },
          [statement (rows.take 2), statement ((rows.drop 2).take 2)]) := by
  obtain ⟨-, -, -, sends⟩ := recording.batches_up_to_failure {} table rows none 2 failing
  obtain ⟨-, statements, compiled, -, failed⟩ := sends (by decide)
  have texts : List.Forall₂ (fun batch sql => statement batch = sql) (chunks 2 rows) statements :=
    compiled.imp fun batch _ text =>
      Except.ok.inj ((table.compile_insertRows {} _ batch none).symm.trans text)
  obtain _ | ⟨rfl, texts⟩ := texts
  obtain _ | ⟨rfl, texts⟩ := texts
  have before : recording.Runs failing [statement (rows.take 2)]
      { failing with sent := [statement (rows.take 2)] } := .cons rfl (.nil _)
  exact ⟨by decide, rfl, (failed _ _ _).mpr ⟨1, ⟨_, _, rfl, before, rfl⟩, rfl⟩⟩

end SqlQuery
