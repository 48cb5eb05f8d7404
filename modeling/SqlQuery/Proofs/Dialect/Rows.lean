import SqlQuery.Proofs.Dialect.Literal

/-!
Constant rows read back. A reader that takes one literal after the other finds the cells and the
rows again: what a text holds is part of its literal, however much it looks like the end of a cell
or of a row.
-/

namespace SqlQuery

open Text

def readRow (input : List Char) : Option (Row × List Char) := do
  let cells ← input.dropPrefix? ['(']
  match cells.dropPrefix? [')'] with
  | some rest => return ([], rest)
  | none =>
      let (row, rest) ← readItems readLiteral cells
      return (row, ← rest.dropPrefix? [')'])

def readRows (text : String) : Option (List Row) := do
  let rows ← text.toList.dropPrefix? "VALUES ".toList
  if rows.isEmpty then
    return []
  else
    let (rows, rest) ← readItems readRow rows
    if rest.isEmpty then return rows else none

/-- Values other than floating-point numbers and points in time. -/
def Value.isPlain : Value → Bool
  | .float _ => false
  | .timestamp _ => false
  | _ => true

variable {d : Dialect}

/-- The dialect lists rows by the rules that hold unless it has its own, with bytes in one of the
two known forms. -/
structure Dialect.UsualRows (d : Dialect) : Prop where
  literal : d.literal = literalText d.timestampLiteral d.bytesLiteral
  rows : d.constantRows = rowsText d.literal
  bytes : d.WritesBytes

theorem readLiteral_literal (known : d.UsualRows) {v : Value} (plain : v.isPlain = true)
    {rest : List Char} (ended : Ends rest) :
    readLiteral ((d.literal v).toList ++ rest) = some (v, rest) := by
  rw [known.literal]
  cases v with
  | bytes b => exact readLiteral_bytes known.bytes b ended
  | float x => cases plain
  | timestamp t => cases plain
  | null => exact readLiteral_basic _ _ rfl ended
  | bool b => exact readLiteral_basic _ _ rfl ended
  | int n => exact readLiteral_basic _ _ rfl ended
  | text s => exact readLiteral_basic _ _ rfl ended

section

variable (literal : Value → String)

theorem toList_rowText (row : Row) :
    (Dialect.rowText literal row).toList =
      '(' :: (", ".toList.intercalate (row.map fun v => (literal v).toList) ++ [')']) := by
  simp only [Dialect.rowText, String.toList_append, String.toList_intercalate, List.map_map,
    List.append_assoc]
  rfl

theorem toList_rowsText (rows : List Row) :
    (Dialect.rowsText literal rows).toList =
      "VALUES ".toList ++
        ", ".toList.intercalate (rows.map fun row => (Dialect.rowText literal row).toList) := by
  simp only [Dialect.rowsText, String.toList_append, String.toList_intercalate, List.map_map]
  rfl

end

theorem readRow_rowText (known : d.UsualRows) {row : Row}
    (plain : ∀ v ∈ row, v.isPlain = true) (rest : List Char) :
    readRow ((Dialect.rowText d.literal row).toList ++ rest) = some (row, rest) := by
  rw [toList_rowText, List.cons_append, List.append_assoc]
  cases row with
  | nil => simp [readRow, List.dropPrefix?]
  | cons first others =>
      let cells := ", ".toList.intercalate
        ((first :: others).map fun v => (d.literal v).toList) ++ (')' :: rest)
      have read : readItems readLiteral cells = some (first :: others, ')' :: rest) := by
        refine readItems_intercalate others ?_ ?_
        · intro v listed rest ended
          exact readLiteral_literal known (plain v listed) ended
        · intro c head
          exact (Option.some.inj head).symm
      have notEmpty : cells.dropPrefix? [')'] = none := by
        -- no literal starts with a parenthesis
        cases written : cells with
        | nil => rfl
        | cons c text =>
            by_cases closing : c = ')'
            · subst closing
              have unread : readLiteral (')' :: text) = none := by
                simp [readLiteral, readKeyword, Value.keywords, List.dropPrefix?]
              rw [written, readItems, unread] at read
              cases read
            · simp [List.dropPrefix?, closing]
      change readRow ('(' :: cells) = _
      simp only [readRow, List.dropPrefix?, beq_self_eq_true, if_true, Option.bind_eq_bind,
        Option.bind_some, notEmpty, read]
      rfl

/-- Rows of plain values are read back from their text, whatever characters their texts hold. -/
theorem readRows_constantRows (known : d.UsualRows) (rows : List Row)
    (plain : ∀ row ∈ rows, ∀ v ∈ row, v.isPlain = true) :
    readRows (d.constantRows rows) = some rows := by
  have values : (d.constantRows rows).toList.dropPrefix? "VALUES ".toList =
      some (", ".toList.intercalate
        (rows.map fun row => (Dialect.rowText d.literal row).toList)) := by
    rw [known.rows, toList_rowsText]
    exact List.dropPrefix?_append_of_beq _ (by decide)
  cases rows with
  | nil =>
      rw [readRows, values]
      rfl
  | cons first others =>
      have read : readItems readRow (", ".toList.intercalate
          ((first :: others).map fun row => (Dialect.rowText d.literal row).toList) ++ []) =
          some (first :: others, []) :=
        readItems_intercalate others
          (fun row listed rest _ => readRow_rowText known (plain row listed) rest) nofun
      rw [List.append_nil] at read
      have present : (", ".toList.intercalate
          ((first :: others).map fun row =>
            (Dialect.rowText d.literal row).toList)).isEmpty = false := by
        cases others <;> simp [toList_rowText, List.intercalate_cons_cons]
      rw [readRows, values]
      simp only [Option.bind_eq_bind, Option.bind_some, present, read]
      rfl

theorem Dialect.usualRows_duckDB : Dialect.duckDB.UsualRows :=
  ⟨rfl, rfl, .inr rfl⟩

/-- What has no default does not show in the text of rows. -/
theorem Dialect.usualRows_default (name : String) (toText md5AsInt : String → String)
    (setTimezoneToUtc : String) (normalizeTimestamp : String → Temporal → String)
    (normalizeNumber : String → UInt32 → String) :
    Dialect.UsualRows
      { name, toText, md5AsInt, setTimezoneToUtc, normalizeTimestamp, normalizeNumber } :=
  ⟨rfl, rfl, .inl rfl⟩

/-! Texts that look like the end of a literal, of a cell and of a row. -/

namespace Lookalikes

def rows : List Row :=
  [[.text "it's", .int (-5), .text "', NULL), ('"], [], [.bytes [0xAB, 0x27], .null, .bool true]]

theorem plain : ∀ row ∈ rows, ∀ v ∈ row, v.isPlain = true := by decide

end Lookalikes

theorem readRows_constantRows_of_lookalikes :
    Dialect.duckDB.UsualRows ∧ (∀ row ∈ Lookalikes.rows, ∀ v ∈ row, v.isPlain = true) ∧
      Dialect.duckDB.constantRows Lookalikes.rows =
        "VALUES ('it''s', -5, ''', NULL), ('''), (), ('\\xAB\\x27'::BLOB, NULL, TRUE)" ∧
      readRows (Dialect.duckDB.constantRows Lookalikes.rows) = some Lookalikes.rows :=
  ⟨Dialect.usualRows_duckDB, Lookalikes.plain, by decide,
    readRows_constantRows Dialect.usualRows_duckDB Lookalikes.rows Lookalikes.plain⟩

end SqlQuery
