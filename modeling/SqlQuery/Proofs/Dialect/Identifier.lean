import SqlQuery.Dialect.DuckDB
import SqlQuery.Proofs.Text.Scan
import SqlQuery.Proofs.Text.Separated
import SqlQuery.Render.Statement

/-!
Names between quotes as SQL reads them: as one quotation, which denotes the name if no quote occurs
in it. The quotes inside a name are not written twice, so with one of them it is read otherwise.
-/

namespace SqlQuery

open Text

variable {d : Dialect} {name : String} {before after : List Char} {read later : List Token}

/-- The quote of the dialect does not occur in the name. -/
def Dialect.Quotable (d : Dialect) (name : String) : Prop :=
  d.identifierQuote ∉ name.toList

/-- Names stand between the quotes of the dialect, as they do unless it has a rule of its own. -/
def Dialect.QuotesPlainly (d : Dialect) : Prop :=
  d.quote = quoted d.identifierQuote

theorem Dialect.QuotesPlainly.toList_quote (plainly : d.QuotesPlainly) (name : String) :
    (d.quote name).toList = d.identifierQuote :: (name.toList ++ [d.identifierQuote]) := by
  rw [plainly]
  simp [Dialect.quoted, String.toList_append, Char.toString]

theorem tokens_quote_append (plainly : d.QuotesPlainly) (quotable : d.Quotable name)
    (apart : after.head? ≠ some d.identifierQuote) :
    tokens d.identifierQuote ((d.quote name).toList ++ after) =
      (tokens d.identifierQuote after).map (.quoted d.identifierQuote name.toList :: ·) := by
  have found := upToMark_doubled d.identifierQuote name.toList apart
  rw [doubled_of_not_mem quotable] at found
  rw [plainly.toList_quote, List.cons_append, List.append_assoc]
  exact tokens_quotation (.inl rfl) found

/-- In whatever text a name is written, it is read as one quotation for the name, and the text
around it as without it, exactly if the name is free of quotes. -/
theorem tokens_quote_iff (plainly : d.QuotesPlainly)
    (reads : tokens d.identifierQuote before = some read)
    (readsLater : tokens d.identifierQuote after = some later)
    (apart : before.getLast? ≠ some d.identifierQuote)
    (apartLater : after.head? ≠ some d.identifierQuote) :
    tokens d.identifierQuote (before ++ (d.quote name).toList ++ after) =
        some (read ++ .quoted d.identifierQuote name.toList :: later) ↔
      d.Quotable name := by
  constructor
  · intro whole
    have spelled := spelling_tokens whole
    rw [List.flatMap_append, List.flatMap_cons, spelling_tokens reads, spelling_tokens readsLater,
      plainly.toList_quote, List.append_assoc, List.append_cancel_left_eq,
      List.append_cancel_right_eq] at spelled
    have same := (List.cons.inj spelled).2
    rw [List.append_cancel_right_eq] at same
    exact doubled_eq_self_iff.mp same
  · intro quotable
    have separate : ∀ c ∈ before.getLast?, c ∈ ((d.quote name).toList ++ after).head? →
        ¬ (c = d.identifierQuote ∨ c = '\'') := by
      intro c last first
      rw [plainly.toList_quote] at first
      cases first
      exact absurd last apart
    rw [List.append_assoc, tokens_append reads separate,
      tokens_quote_append plainly quotable apartLater, readsLater]
    rfl

/-! Paths. -/

def Dialect.pathTail (d : Dialect) (names : List String) : List Char :=
  names.flatMap fun name => '.' :: (d.quote name).toList

theorem Dialect.QuotesPlainly.pathTail_cons (plainly : d.QuotesPlainly) (name : String)
    (names : List String) :
    d.pathTail (name :: names) =
      '.' :: d.identifierQuote :: (name.toList ++ d.identifierQuote :: d.pathTail names) := by
  simp [Dialect.pathTail, plainly.toList_quote]

theorem toList_tableText {ctx : Context} (plainly : ctx.dialect.QuotesPlainly) {t : Table}
    {name : String} {names : List String} (path : t.path.segments = name :: names) :
    (tableText ctx t).toList = ctx.dialect.identifierQuote ::
      (name.toList ++ ctx.dialect.identifierQuote :: ctx.dialect.pathTail names) := by
  rw [tableText, path, String.toList_intercalate, List.map_cons, List.map_cons,
    List.intercalate_cons_eq_append_flatMap, Context.quote, plainly.toList_quote]
  simp [Dialect.pathTail, List.flatMap_map, Context.quote]

theorem pathTail_injective (plainly : d.QuotesPlainly) {first second : List String}
    (firstFree : ∀ name ∈ first, d.Quotable name) (secondFree : ∀ name ∈ second, d.Quotable name)
    (same : d.pathTail first = d.pathTail second) : first = second := by
  induction first generalizing second with
  | nil =>
      cases second with
      | nil => rfl
      | cons other second => cases same
  | cons name first ih =>
      cases second with
      | nil => cases same
      | cons other second =>
          obtain ⟨nameFree, firstFree⟩ := List.forall_mem_cons.mp firstFree
          obtain ⟨otherFree, secondFree⟩ := List.forall_mem_cons.mp secondFree
          rw [plainly.pathTail_cons, plainly.pathTail_cons, List.cons.injEq,
            List.cons.injEq] at same
          obtain ⟨names, tails⟩ := append_mark_inj nameFree otherFree same.2.2
          rw [String.toList_inj.mp names, ih firstFree secondFree tails]

theorem Path.ext {p q : Path} (segments : p.segments = q.segments) : p = q := by
  cases p
  cases q
  cases segments
  rfl

theorem Path.eq_of_tableText {ctx : Context} (plainly : ctx.dialect.QuotesPlainly) {t u : Table}
    (free : ∀ name ∈ t.path.segments, ctx.dialect.Quotable name)
    (otherFree : ∀ name ∈ u.path.segments, ctx.dialect.Quotable name)
    (same : tableText ctx t = tableText ctx u) : t.path = u.path := by
  obtain ⟨name, names, path⟩ := List.exists_cons_of_ne_nil t.path.segments_ne_nil
  obtain ⟨other, others, otherPath⟩ := List.exists_cons_of_ne_nil u.path.segments_ne_nil
  rw [path, List.forall_mem_cons] at free
  rw [otherPath, List.forall_mem_cons] at otherFree
  have texts := congrArg String.toList same
  rw [toList_tableText plainly path, toList_tableText plainly otherPath] at texts
  obtain ⟨first, tails⟩ := append_mark_inj free.1 otherFree.1 (List.cons.inj texts).2
  have segments : t.path.segments = u.path.segments := by
    rw [path, otherPath, String.toList_inj.mp first,
      pathTail_injective plainly free.2 otherFree.2 tails]
  exact Path.ext segments

/-! Lists of names. -/

theorem identifiers_quote_append (plainly : d.QuotesPlainly) (quotable : d.Quotable name)
    (apart : after.head? ≠ some d.identifierQuote) :
    identifiers d.identifierQuote ((d.quote name).toList ++ after) =
      (identifiers d.identifierQuote after).map (name.toList :: ·) := by
  rw [identifiers, identifiers, tokens_quote_append plainly quotable apart, Option.map_map,
    Option.map_map]
  congr 1
  funext later
  simp [Token.name?]

/-- Names with something after each, and a separator between any two. -/
theorem identifiers_intercalate (plainly : d.QuotesPlainly) {separator : List Char}
    (items : List (String × List Char))
    (separated : separator ≠ []) (plain : Unquoted d.identifierQuote separator)
    (quotable : ∀ item ∈ items, d.Quotable item.1)
    (unquoted : ∀ item ∈ items, Unquoted d.identifierQuote item.2)
    (apart : after.head? ≠ some d.identifierQuote) :
    identifiers d.identifierQuote
        (separator.intercalate (items.map fun item => (d.quote item.1).toList ++ item.2) ++
          after) =
      (identifiers d.identifierQuote after).map (items.map (·.1.toList) ++ ·) := by
  induction items with
  | nil => simp
  | cons item items ih =>
      obtain ⟨itemQuotable, quotable⟩ := List.forall_mem_cons.mp quotable
      obtain ⟨itemUnquoted, unquoted⟩ := List.forall_mem_cons.mp unquoted
      cases items with
      | nil =>
          rw [List.map_singleton, List.intercalate_singleton, List.append_assoc,
            identifiers_quote_append plainly itemQuotable
              (itemUnquoted.head_append_ne fun _ => apart),
            identifiers_append_of_unquoted itemUnquoted]
          rfl
      | cons next items =>
          have apartNext (more : List Char) :
              (separator ++ more).head? ≠ some d.identifierQuote :=
            plain.head_append_ne fun none => absurd none separated
          have later := ih quotable unquoted
          rw [List.map_cons] at later
          rw [List.map_cons, List.map_cons, List.intercalate_cons_cons, List.append_assoc,
            List.append_assoc, List.append_assoc, identifiers_quote_append plainly itemQuotable
              (itemUnquoted.head_append_ne fun _ => apartNext _),
            identifiers_append_of_unquoted itemUnquoted, identifiers_append_of_unquoted plain,
            later, Option.map_map]
          rfl

/-! A table with its columns. -/

/-- The words of a table definition, and the marks between them. -/
def definitionWords : List Char :=
  "CREATE TABLE IF NOT EXISTS PRIMARY KEY (),.".toList

/-- The key is written only for a dialect that has one. -/
def writtenKeys (ctx : Context) (primaryKeys : List String) : List String :=
  if ctx.dialect.supportsPrimaryKey then primaryKeys else []

def CreateTable.writtenNames (ctx : Context) (schema : Schema) (s : CreateTable) : List String :=
  s.table.path.segments ++ (schema.columns.map Prod.fst ++ writtenKeys ctx s.primaryKeys)

section Definition

variable {ctx : Context} (words : Unquoted ctx.dialect.identifierQuote definitionWords)
  (plainly : ctx.dialect.QuotesPlainly)

include words

theorem unquoted_of_words {text : List Char} (subset : text.all definitionWords.contains = true) :
    Unquoted ctx.dialect.identifierQuote text := by
  intro c listed
  exact words c (List.contains_iff_mem.mp (List.all_eq_true.mp subset c listed))

theorem identifiers_words {text : List Char} (subset : text.all definitionWords.contains = true) :
    identifiers ctx.dialect.identifierQuote (text ++ after) =
      identifiers ctx.dialect.identifierQuote after :=
  identifiers_append_of_unquoted (unquoted_of_words words subset)

theorem head_words_ne {text : List Char} (subset : text.all definitionWords.contains = true)
    (written : text ≠ []) : (text ++ after).head? ≠ some ctx.dialect.identifierQuote :=
  (unquoted_of_words words subset).head_append_ne fun none => absurd none written

include plainly

theorem identifiers_names {separator : String} {names : List String}
    (subset : separator.toList.all definitionWords.contains = true)
    (written : separator.toList ≠ []) (quotable : ∀ name ∈ names, ctx.dialect.Quotable name)
    (apart : after.head? ≠ some ctx.dialect.identifierQuote) :
    identifiers ctx.dialect.identifierQuote
        ((separator.intercalate (names.map ctx.quote)).toList ++ after) =
      (identifiers ctx.dialect.identifierQuote after).map (names.map String.toList ++ ·) := by
  have items := identifiers_intercalate plainly (names.map fun name => (name, []))
    written (unquoted_of_words words subset) (by simpa using quotable) (by simp [Unquoted]) apart
  simp only [List.map_map, Function.comp_def, List.append_nil] at items
  rw [String.toList_intercalate, List.map_map]
  exact items

theorem identifiers_columns {schema : Schema}
    (types : ∀ column ∈ schema.columns,
      Unquoted ctx.dialect.identifierQuote (ctx.dialect.typeName column.2).toList)
    (quotable : ∀ column ∈ schema.columns, ctx.dialect.Quotable column.1)
    (apart : after.head? ≠ some ctx.dialect.identifierQuote) :
    identifiers ctx.dialect.identifierQuote
        ((", ".intercalate (schema.columns.map fun (name, type) =>
          ctx.quote name ++ " " ++ ctx.dialect.typeName type)).toList ++ after) =
      (identifiers ctx.dialect.identifierQuote after).map
        (schema.columns.map (·.1.toList) ++ ·) := by
  have blank : Unquoted ctx.dialect.identifierQuote " ".toList :=
    unquoted_of_words words (by decide)
  have comma : Unquoted ctx.dialect.identifierQuote ", ".toList :=
    unquoted_of_words words (by decide)
  have unquoted : ∀ column ∈ schema.columns, Unquoted ctx.dialect.identifierQuote
      (" ".toList ++ (ctx.dialect.typeName column.2).toList) := by
    intro column listed c written
    exact (List.mem_append.mp written).elim (blank c) (types column listed c)
  have items := identifiers_intercalate plainly
    (schema.columns.map fun column =>
      (column.1, " ".toList ++ (ctx.dialect.typeName column.2).toList))
    (by decide) comma (by simpa only [List.forall_mem_map] using quotable)
    (by simpa only [List.forall_mem_map] using unquoted) apart
  simp only [List.map_map, Function.comp_def] at items
  rw [String.toList_intercalate, List.map_map, ← items]
  simp only [Function.comp_def, String.toList_append, Context.quote, List.append_assoc]

theorem identifiers_columnDefinitions {schema : Schema} {primaryKeys : List String}
    (types : ∀ column ∈ schema.columns,
      Unquoted ctx.dialect.identifierQuote (ctx.dialect.typeName column.2).toList)
    (quotable : ∀ name ∈ schema.columns.map Prod.fst ++ writtenKeys ctx primaryKeys,
      ctx.dialect.Quotable name)
    (apart : after.head? ≠ some ctx.dialect.identifierQuote) :
    identifiers ctx.dialect.identifierQuote
        ((columnDefinitions ctx schema primaryKeys).toList ++ after) =
      (identifiers ctx.dialect.identifierQuote after).map
        ((schema.columns.map Prod.fst ++ writtenKeys ctx primaryKeys).map String.toList ++ ·) := by
  rw [List.forall_mem_append, List.forall_mem_map] at quotable
  obtain ⟨columns, keys⟩ := quotable
  rw [columnDefinitions]
  cases wanted : !primaryKeys.isEmpty && ctx.dialect.supportsPrimaryKey with
  | false =>
      have none : writtenKeys ctx primaryKeys = [] := by
        rw [writtenKeys]
        split
        · simpa [*] using wanted
        · rfl
      rw [none, if_neg (by simp), String.append_empty,
        identifiers_columns words plainly types columns apart]
      simp [Function.comp_def]
  | true =>
      rw [Bool.and_eq_true] at wanted
      rw [writtenKeys, if_pos wanted.2] at keys ⊢
      rw [if_pos rfl, String.toList_append, List.append_assoc,
        identifiers_columns words plainly types columns, String.toList_append, String.toList_append,
        List.append_assoc, List.append_assoc, identifiers_words words (by decide),
        identifiers_names words plainly (by decide) (by decide) keys,
        identifiers_words words (by decide)]
      · simp [Function.comp_def]
      · exact head_words_ne words (by decide) (by decide)
      · rw [String.toList_append, String.toList_append, List.append_assoc, List.append_assoc]
        exact head_words_ne words (by decide) (by decide)

theorem CreateTable.identifiers_render {links : Links} {s : CreateTable} {schema : Schema}
    (given : s.source = none) (typed : s.table.schema = some schema)
    (types : ∀ column ∈ schema.columns,
      Unquoted ctx.dialect.identifierQuote (ctx.dialect.typeName column.2).toList)
    (quotable : ∀ name ∈ s.writtenNames ctx schema, ctx.dialect.Quotable name) :
    ∃ text, s.render links ctx = pure text ∧
      identifiers ctx.dialect.identifierQuote text.toList =
        some ((s.writtenNames ctx schema).map String.toList) := by
  rw [CreateTable.writtenNames, List.forall_mem_append] at quotable
  rw [CreateTable.render, given, typed]
  refine ⟨_, rfl, ?_⟩
  have closed : identifiers ctx.dialect.identifierQuote ")".toList = some [] := by
    rw [← List.append_nil ")".toList, identifiers_words words (by decide)]
    simp [identifiers, tokens]
  have start : (if s.ifNotExists then "IF NOT EXISTS " else "").toList.all
      definitionWords.contains = true := by
    cases s.ifNotExists <;> decide
  simp only [String.toList_append, List.append_assoc]
  rw [identifiers_words words (by decide), identifiers_words words start, tableText,
    identifiers_names words plainly (by decide) (by decide) quotable.1,
    identifiers_words words (by decide),
    identifiers_columnDefinitions words plainly types quotable.2, closed, CreateTable.writtenNames]
  · simp
  · rw [← List.append_nil ")".toList]
    exact head_words_ne words (by decide) (by decide)
  · exact head_words_ne words (by decide) (by decide)

end Definition

/-- Names are read back as they were given, alone, in the path of a table and in its definition, if
no quote occurs in them; a name with a quote is read otherwise wherever it stands. -/
theorem Context.names_read_iff (ctx : Context) (plainly : ctx.dialect.QuotesPlainly) :
    (∀ name before after read later, tokens ctx.dialect.identifierQuote before = some read →
      tokens ctx.dialect.identifierQuote after = some later →
      before.getLast? ≠ some ctx.dialect.identifierQuote →
      after.head? ≠ some ctx.dialect.identifierQuote →
      (tokens ctx.dialect.identifierQuote (before ++ (ctx.dialect.quote name).toList ++ after) =
          some (read ++ .quoted ctx.dialect.identifierQuote name.toList :: later) ↔
        ctx.dialect.Quotable name)) ∧
    (∀ t u : Table, (∀ name ∈ t.path.segments, ctx.dialect.Quotable name) →
      (∀ name ∈ u.path.segments, ctx.dialect.Quotable name) →
      tableText ctx t = tableText ctx u → t.path = u.path) ∧
    (Unquoted ctx.dialect.identifierQuote definitionWords →
      ∀ links (s : CreateTable) schema, s.source = none → s.table.schema = some schema →
      (∀ column ∈ schema.columns,
        Unquoted ctx.dialect.identifierQuote (ctx.dialect.typeName column.2).toList) →
      (∀ name ∈ s.writtenNames ctx schema, ctx.dialect.Quotable name) →
      ∃ text, s.render links ctx = pure text ∧
        identifiers ctx.dialect.identifierQuote text.toList =
          some ((s.writtenNames ctx schema).map String.toList)) :=
  ⟨fun _ _ _ _ _ reads readsLater apart apartLater =>
      tokens_quote_iff plainly reads readsLater apart apartLater,
    fun _ _ free otherFree same => Path.eq_of_tableText plainly free otherFree same,
    fun words _ _ _ given typed types quotable =>
      CreateTable.identifiers_render words plainly given typed types quotable⟩

namespace Orders

def context : Context := { dialect := .duckDB }

/-- One name that looks like the text of two. -/
def inOne : Path := ⟨["a\".\"b"], by decide, by decide⟩

def inTwo : Path := ⟨["a", "b"], by decide, by decide⟩

def table (id : Nat) (path : Path) : Table :=
  ⟨⟨id⟩, path, some { columns := [("it's, (x", .integer), ("y", .text)] }⟩

def creation : CreateTable := { table := table 0 inTwo, primaryKeys := ["y"] }

theorem quotable : ∀ name ∈ ["a", "b", "it's, (x", "y", "y"], Dialect.duckDB.Quotable name := by
  unfold Dialect.Quotable
  decide

end Orders

theorem names_read_of_orders :
    Orders.context.dialect.QuotesPlainly ∧
    tokens '"' ("SELECT ".toList ++ (Dialect.duckDB.quote "it's, (x").toList ++ " < '\"'".toList) =
      some ("SELECT ".toList.map .symbol ++ .quoted '"' "it's, (x".toList ::
        (" < ".toList.map .symbol ++ [.quoted '\'' ['"']])) ∧
    (Orders.table 0 Orders.inTwo).path = (Orders.table 1 Orders.inTwo).path ∧
    ∀ links, ∃ text, Orders.creation.render links Orders.context = pure text ∧
      identifiers '"' text.toList =
        some (["a", "b", "it's, (x", "y", "y"].map String.toList) := by
  obtain ⟨alone, paths, definition⟩ := Orders.context.names_read_iff rfl
  refine ⟨rfl, ?_, ?_, fun links => ?_⟩
  · exact (alone "it's, (x" "SELECT ".toList " < '\"'".toList _ _ (by cbv) (by cbv) (by decide)
      (by decide)).mpr (Orders.quotable _ (by decide))
  · exact paths _ _ (fun _ listed => Orders.quotable _ (List.mem_append_left _ listed))
      (fun _ listed => Orders.quotable _ (List.mem_append_left _ listed)) (by decide)
  · refine definition (unquoted_of_all (by decide)) links Orders.creation _ rfl rfl ?_
      Orders.quotable
    simp only [List.forall_mem_cons]
    exact ⟨unquoted_of_all (by decide), unquoted_of_all (by decide), List.forall_mem_nil _⟩

theorem tableText_inOne_eq_inTwo :
    ¬ Dialect.duckDB.Quotable "a\".\"b" ∧
      tokens '"' (Dialect.duckDB.quote "a\".\"b").toList =
        some [.quoted '"' ['a'], .symbol '.', .quoted '"' ['b']] ∧
      tableText Orders.context (Orders.table 0 Orders.inOne) =
        tableText Orders.context (Orders.table 0 Orders.inTwo) ∧
      Orders.inOne ≠ Orders.inTwo := by
  refine ⟨?_, ?_, ?_, ?_⟩
  · unfold Dialect.Quotable
    decide
  · cbv
  · decide
  · decide

end SqlQuery
