import SqlQuery.Proofs.Render.Outcome
import SqlQuery.Proofs.Render.RelationComments

/-!
Comments in SQL. Where all names are plain or can be quoted, one starts in the SQL of a node only
where a negation stands before a sign.
-/

namespace SqlQuery

open Text

namespace Survey

variable {survey : Survey} {nodes others : List Node} {text other : String} {texts : List String}

/-! Statements. -/

section Statements

variable {links : Links} {ctx : Context}

theorem neat_rowText (row : Row) :
    survey.Neat [] (Dialect.rowText survey.settings.dialect.literal row) := by
  have values : survey.NeatAll [] (row.map survey.settings.dialect.literal) := by
    refine .of_forall fun text listed => ?_
    obtain ⟨v, _, rfl⟩ := List.mem_map.mp listed
    exact neat_literal v
  exact (values.intercalate joins_comma).enclosed.neat

theorem neat_constantRows (rows : List Row) :
    survey.Neat [] (survey.settings.dialect.constantRows rows) := by
  rw [survey.quiet.rows]
  have all : survey.NeatAll [] (rows.map (Dialect.rowText survey.settings.dialect.literal)) := by
    refine .of_forall fun text listed => ?_
    obtain ⟨row, _, rfl⟩ := List.mem_map.mp listed
    exact neat_rowText row
  exact ((all.intercalate joins_comma).opened "VALUES " (.ofList (by decide))).neat

theorem columnDefinitions_neat {schema : Schema} {primaryKeys : List String}
    (quotableKeys : ∀ key ∈ primaryKeys, survey.settings.dialect.Quotable key)
    (plain : ∀ column ∈ schema.columns,
      survey.settings.dialect.Quotable column.1 ∧ column.2.HasPlainName)
    (admits : survey.Admits ctx) :
    survey.Neat [] (columnDefinitions ctx schema primaryKeys) := by
  have columns : survey.NeatAll [] (schema.columns.map fun column =>
      ctx.quote column.1 ++ " " ++ ctx.dialect.typeName column.2) := by
    refine .of_forall fun text listed => ?_
    obtain ⟨column, present, rfl⟩ := List.mem_map.mp listed
    obtain ⟨quotable, plainName⟩ := plain column present
    rw [Context.quote, admits.dialect]
    exact (neat_quote quotable).between " " (.ofList (by decide))
      (neat_of_plain (survey.quiet.typeName column.2 plainName))
  have list := columns.intercalate joins_comma
  unfold columnDefinitions
  dsimp only
  split
  · have quoted := (neatAll_quotes quotableKeys admits).intercalate joins_comma
    have keys := (quoted.opened ", PRIMARY KEY (" (.ofList (by decide))).closed
    exact list.append keys.neat keys.start.follows
  · exact list.append_plain plain_empty

theorem gives_create {s : CreateTable} (gives : ∀ r, survey.RelationGives links r)
    (sane : survey.Sane (.statement (.create s))) (admits : survey.Admits ctx) :
    survey.Gives (survey.Opened (s.source.toList.map .relation)) (s.render links ctx) := by
  obtain ⟨table, source, ifNotExists, primaryKeys⟩ := s
  obtain ⟨plainTable, quotableKeys, plainColumns⟩ := sane.here
  have start : Plain ("CREATE TABLE " ++ if ifNotExists then "IF NOT EXISTS " else "") :=
    (Plain.ofList (by decide)).append_optional (Plain.ofList (by decide))
  have head := (tableText_neat plainTable admits).opened _ ⟨start, by simp⟩
  rw [CreateTable.render]
  cases source with
  | some source =>
      refine (gives source ctx (sane.part List.mem_cons_self) admits).map fun text given => ?_
      exact head.between " AS " (.ofList (by decide)) given.neat
  | none =>
      cases schema : table.schema with
      | none => exact .throw _
      | some schema =>
          have columns := columnDefinitions_neat quotableKeys (plainColumns _ ‹_›) admits
          exact .pure (head.between "(" (.ofList (by decide)) columns).closed

/-- The columns that an insert names. -/
def columnList (ctx : Context) : Option (List String) → String
  | some columns => "(" ++ ", ".intercalate (columns.map ctx.quote) ++ ")"
  | none => ""

theorem columnList_neat {columns : Option (List String)}
    (quotable : ∀ column ∈ columns.getD [], survey.settings.dialect.Quotable column)
    (admits : survey.Admits ctx) :
    survey.Neat [] (columnList ctx columns) ∧ Follows (columnList ctx columns) := by
  cases columns with
  | none => exact ⟨neat_empty, follows_empty⟩
  | some columns =>
      have quoted := (neatAll_quotes quotable admits).intercalate joins_comma
      exact ⟨quoted.enclosed.neat, quoted.enclosed.start.follows⟩

theorem gives_insert {s : Insert} (gives : ∀ r, survey.RelationGives links r)
    (sane : survey.Sane (.statement (.insert s))) (admits : survey.Admits ctx) :
    survey.Gives (survey.Opened ((Statement.insert s).sources.map .relation))
      (s.render links ctx) := by
  obtain ⟨table, source, columns⟩ := s
  obtain ⟨plainTable, quotable⟩ := sane.here
  have list := columnList_neat quotable admits
  have head := (tableText_neat plainTable admits).opened "INSERT INTO " (.ofList (by decide))
  have named := head.append list.1 list.2
  cases source with
  | rows rows =>
      refine .pure ?_
      rw [admits.dialect]
      exact named.between " " (.ofList (by decide)) (neat_constantRows rows)
  | query query =>
      refine (gives query ctx (sane.part List.mem_cons_self) admits).map fun text given => ?_
      exact named.between " " (.ofList (by decide)) given.neat

theorem gives_statement (follow : survey.LinksGive links) {s : Statement}
    (sane : survey.Sane (.statement s)) (admits : survey.Admits ctx) :
    survey.Gives (survey.NodeText (.statement s)) (s.render links ctx) := by
  have gives := follow.induction.relation
  have unsigned : ¬ (Node.statement s).Signed survey.store survey.settings :=
    fun signed => by cases signed
  cases s with
  | create s =>
      exact (gives_create gives sane admits).imp fun text => .of_opened rfl unsigned
  | insert s =>
      exact (gives_insert gives sane admits).imp fun text => .of_opened rfl unsigned
  | drop s =>
      have start : Plain ("DROP TABLE " ++ if s.ifExists then "IF EXISTS " else "") :=
        (Plain.ofList (by decide)).append_optional (Plain.ofList (by decide))
      have head := (tableText_neat sane.here admits).opened _ ⟨start, by simp⟩
      exact .pure (.of_opened rfl unsigned head)
  | truncate t =>
      have head := (tableText_neat sane.here admits).opened "TRUNCATE TABLE " (.ofList (by decide))
      exact .pure (.of_opened rfl unsigned head)
  | commit =>
      have plain : Plain (if ctx.autocommit then "" else "COMMIT") := by
        cases ctx.autocommit with
        | false => exact .ofList (by decide)
        | true => exact plain_empty
      exact .pure (.of_parts rfl unsigned (neat_of_plain plain) plain.head?_ne_dash)
  | explain query =>
      refine (gives_query (gives query) (sane.part List.mem_cons_self) admits).map
        fun text given => ?_
      rw [admits.dialect, survey.quiet.explain]
      exact .of_opened rfl unsigned (given.1.opened "EXPLAIN " (.ofList (by decide)))

end Statements

/-! Nodes. -/

section Nodes

variable {links : Links} {ctx : Context} {node : Node}

theorem gives_node (follow : survey.LinksGive links) (sane : survey.Sane node)
    (admits : survey.Admits ctx) :
    survey.Gives (survey.NodeText node) (node.render links ctx) := by
  cases node with
  | expr e => exact follow.induction.expr e ctx sane admits
  | relation r => exact follow.induction.relation r ctx sane admits
  | statement s => exact gives_statement follow sane admits

theorem gives_unending {good : String → Prop} (result : Except Error α) :
    survey.Gives good (do
      discard result
      throw .unending) := by
  intro draft text final _ outcome
  cases result with
  | error e => cases outcome
  | ok a => cases outcome

theorem linksGive (depth : Nat) : survey.LinksGive (survey.settings.links survey.store depth) := by
  induction depth with
  | zero =>
      constructor
      · intro id name ctx _ _
        exact gives_unending (survey.store.resolve id name)
      · intro name ctx _ _
        exact gives_unending (survey.settings.param name)
  | succ depth ih =>
      constructor
      · intro id name ctx sane admits
        refine .lift_bind fun e bound => ?_
        refine (gives_node ih (sane e bound) admits).imp fun text given => ⟨.expr e, ?_, given⟩
        rw [bound]
        rfl
      · intro name ctx sane admits
        refine .lift_bind fun node given => ?_
        exact (gives_node ih (sane node given) admits).imp
          fun text written => ⟨node, given, written⟩

theorem gives_root (follow : survey.LinksGive links) (sane : survey.Sane node)
    (admits : survey.Admits ctx) :
    survey.Gives (survey.Neat [node]) (node.renderRoot links ctx) := by
  cases node with
  | expr e =>
      have notCode : ∀ sql, e ≠ .code sql := by
        intro sql code
        cases code
        exact sane.here
      have inner := admits.placed true ctx.inJoin
      have column := (follow.induction.expr e _ sane inner).map fun text given =>
        NeatAll.singleton given.neat
      rw [Node.renderRoot_expr links ctx notCode, admits.dialect]
      refine (gives_selectText column (.pure neat_placeholderTable) (.pure .nil) (.pure neat_empty)
        (.pure .nil) (.pure .nil)).bind fun sql opened => ?_
      refine (gives_enclose ctx opened.neat opened.start.head?_ne_dash).imp fun text given => ?_
      exact given.1
  | relation r =>
      exact (gives_query (follow.induction.relation r) sane admits).imp fun text => And.left
  | statement s => exact (gives_statement follow sane admits).imp fun text => NodeText.neat

theorem withClause_neat {draft : Draft} (definitions : survey.NeatDraft draft)
    (neat : survey.Neat nodes text) : survey.Neat nodes (draft.withClause text) := by
  have items : survey.NeatAll [] (draft.definitions.map fun definition =>
      "\n  " ++ definition.1 ++ " AS (" ++ definition.2 ++ ")") := by
    refine .of_forall fun item listed => ?_
    obtain ⟨definition, present, rfl⟩ := List.mem_map.mp listed
    obtain ⟨plain, neatBody⟩ := definitions definition present
    have indent : Plain "\n  " := .ofList (by decide)
    have opening : Plain " AS (" := .ofList (by decide)
    have head := (indent.append plain).append opening
    exact (neatBody.opened _ ⟨head, by simp⟩).closed.neat
  unfold Draft.withClause
  split
  · exact neat
  · have list := (items.intercalate joins_comma).opened "WITH " (.ofList (by decide))
    exact (list.between "\n" (.ofList (by decide)) neat).neat

theorem neat_compile {sql : String} (sane : survey.Sane node)
    (compiled : node.compile survey.store survey.settings = .ok sql) : survey.Neat [node] sql := by
  obtain ⟨body, draft, written, rfl⟩ := Node.compileWithin_eq_ok.mp compiled
  have admits : survey.Admits survey.settings.context := ⟨rfl, List.forall_mem_nil _⟩
  have start : survey.NeatDraft {} := List.forall_mem_nil _
  obtain ⟨neat, definitions⟩ := gives_root (linksGive _) sane admits _ _ _ start written
  exact withClause_neat definitions neat

end Nodes

end Survey

/-! Dialects whose own texts are plain. -/

namespace Dialect

theorem plain_limitClause (limit : Option UInt64) : Plain (limitClause none limit) := by
  cases limit with
  | none => exact plain_empty
  | some limit => exact (Plain.ofList (by decide)).append (plain_toString limit.toNat)

theorem plain_baseName {type : SemanticType} (named : type.HasPlainName) : Plain type.baseName := by
  have close : Plain ")" := .ofList (by decide)
  have varchar : Plain "VARCHAR" := .ofList (by decide)
  cases type with
  | integer => exact .ofList (by decide)
  | float => exact (Plain.ofList (by decide) : Plain "FLOAT")
  | decimal precision =>
      exact ((Plain.ofList (by decide)).append (plain_toString precision.toNat)).append close
  | text => exact varchar
  | boolean => exact .ofList (by decide)
  | timestamp => exact (Plain.ofList (by decide) : Plain "TIMESTAMP")
  | timestampTz temporal =>
      exact ((Plain.ofList (by decide)).append (plain_toString _)).append close
  | uuid storage =>
      cases storage with
      | native => exact .ofList (by decide)
      | text => exact varchar
  | unknown name => exact named

theorem plain_typeName_duckDB {type : SemanticType} (named : type.HasPlainName) :
    Plain (DuckDB.typeName type) := by
  cases type with
  | integer => exact .ofList (by decide)
  | float => exact (Plain.ofList (by decide) : Plain "DOUBLE")
  | timestampTz => exact (Plain.ofList (by decide) : Plain "TIMESTAMP WITH TIME ZONE")
  | _ => exact plain_baseName named

theorem plainMark_quote : PlainMark '"' :=
  ⟨by decide, by decide⟩

theorem quiet_duckDB : Dialect.duckDB.Quiet where
  literal := rfl
  timestamps _ := rfl
  bytes := .inr rfl
  names := rfl
  rows := rfl
  mark := plainMark_quote
  toText := ⟨"", "::VARCHAR", plain_empty, Plain.ofList (by decide),
    fun text => by rw [String.empty_append]; rfl⟩
  typeName _ := plain_typeName_duckDB
  offsetLimit := plain_limitClause
  concat _ := rfl
  random := .ofList (by decide)
  currentTimestamp := .ofList (by decide)
  explain _ := rfl
  distinct _ _ := rfl
  placeholderTable _ none := by cases none

/-- The rules that have a default are those of a quiet dialect, if what becomes a text gets a plain
cast around it. -/
theorem quiet_default (name : String) {toText : String → String}
    (framed : ∃ before after, Plain before ∧ Plain after ∧
      ∀ text, toText text = before ++ text ++ after)
    (md5AsInt : String → String) (setTimezoneToUtc : String)
    (normalizeTimestamp : String → Temporal → String)
    (normalizeNumber : String → UInt32 → String) :
    Dialect.Quiet
      { name, toText, md5AsInt, setTimezoneToUtc, normalizeTimestamp, normalizeNumber } where
  literal := rfl
  timestamps _ := rfl
  bytes := .inl rfl
  names := rfl
  rows := rfl
  mark := plainMark_quote
  toText := framed
  typeName _ := plain_baseName
  offsetLimit := plain_limitClause
  concat _ := rfl
  random := (Plain.ofList (by decide) : Plain "random()")
  currentTimestamp := (Plain.ofList (by decide) : Plain "current_timestamp()")
  explain _ := rfl
  distinct _ _ := rfl
  placeholderTable _ none := by cases none

end Dialect

/-! SQL without comments. -/

namespace Node

variable {store : Store} {settings : Settings} {node : Node}

/-- The SQL can be read to its end, and a comment starts in it only where a negation stands before a
sign. One in a definition of the WITH clause may be gone: another definition with the same head
takes its place. -/
theorem comments_by_signs (quiet : settings.dialect.Quiet)
    (plain : ∀ inner, node.Reaches store settings true inner → inner.Plain settings.dialect)
    {sql : String} (compiled : node.compile store settings = .ok sql) :
    ∃ read, tokens settings.dialect.identifierQuote sql.toList = some read ∧
      (node.DoublesSign store settings false → commented read = true) ∧
      (commented read = true → node.DoublesSign store settings true) ∧
      ((∀ c, ¬ node.Reaches store settings true (.relation (.cte c))) →
        (commented read = true ↔ node.DoublesSign store settings false)) := by
  let survey : Survey := ⟨store, settings, quiet, node.DoublesSign store settings true⟩
  have sane : survey.Sane node := ⟨plain, id⟩
  obtain ⟨read, found, needed, allowed⟩ := Survey.neat_compile sane compiled
  have shown : node.DoublesSign store settings false → commented read = true :=
    fun doubles => needed (Survey.doubles_singleton.mpr doubles)
  refine ⟨read, found, shown, allowed, fun undefined => ⟨fun comment => ?_, shown⟩⟩
  exact (allowed comment).undefined undefined

end Node

namespace Balance

def settings : Settings where
  dialect := .duckDB
  params := some [("rate", .expr (.value (.int (-1))))]

def amount : Expr :=
  .column ⟨.param ⟨⟨1⟩, "orders"⟩, "amount"⟩

def items : List Expr :=
  [.negate (.negate amount), .param "rate", .call "length" [.value (.text "--")]]

/-- Dashes in a text and in a name, a negation of a negation and a number below zero. -/
def net : Expr :=
  .aliased (.binary .sub items) "net--total"

def nodes : List Node :=
  [net, .binary .sub items, .negate (.negate amount), .negate amount, amount, .param "rate",
    .value (.int (-1)), .call "length" [.value (.text "--")], .value (.text "--")].map .expr

theorem plain_of_mem : ∀ node ∈ nodes, node.Plain .duckDB := by
  have names : Dialect.duckDB.Quotable "net--total" ∧ Dialect.duckDB.Quotable "amount" := by
    unfold Dialect.Quotable
    decide
  have function : Plain "length" := .ofList (by decide)
  simp [nodes, net, amount, Node.Plain, Expr.Plain, names, function]

theorem mem_of_reaches {inner : Node} (within : (Node.expr net).Reaches {} settings true inner) :
    inner ∈ nodes := by
  refine within.mem_of_closed ?_ List.mem_cons_self
  simp [nodes, net, amount, items, Node.parts, Expr.parts, Expr.children, linkedNodes,
    Settings.param, settings, Except.toOption]

theorem eq_of_reaches_negate {e : Expr}
    (within : (Node.expr net).Reaches {} settings true (.expr (.negate e))) :
    e = .negate amount ∨ e = amount := by
  simpa [nodes, net, amount] using mem_of_reaches within

/-- A number below zero, negated. -/
def reversed : Expr :=
  .negate (.value (.int (-1)))

theorem plain_reversed {inner : Node}
    (within : (Node.expr reversed).Reaches {} { dialect := .duckDB } true inner) :
    inner.Plain .duckDB := by
  cases within with
  | self => trivial
  | part listed within =>
      cases List.mem_singleton.mp listed
      cases within with
      | self => trivial
      | part listed => cases listed

end Balance

theorem comments_by_signs_of_balance :
    Dialect.duckDB.Quiet ∧
    (∀ inner, (Node.expr Balance.net).Reaches {} Balance.settings true inner →
      inner.Plain .duckDB) ∧
    (Node.expr Balance.net).compile {} Balance.settings =
      .ok "SELECT ((-(-\"amount\")) - -1 - length('--')) AS \"net--total\"" ∧
    ∃ read, tokens '"' "SELECT ((-(-\"amount\")) - -1 - length('--')) AS \"net--total\"".toList =
      some read ∧ commented read = false := by
  have quiet : Balance.settings.dialect.Quiet := Dialect.quiet_duckDB
  have plain : ∀ inner, (Node.expr Balance.net).Reaches {} Balance.settings true inner →
      inner.Plain .duckDB :=
    fun inner within => Balance.plain_of_mem inner (Balance.mem_of_reaches within)
  refine ⟨quiet, plain, rfl, ?_⟩
  obtain ⟨read, found, -, doubled, -⟩ := Node.comments_by_signs quiet plain rfl
  refine ⟨read, found, Bool.eq_false_iff.mpr fun comment => ?_⟩
  obtain ⟨e, within, signed⟩ := doubled comment
  rcases Balance.eq_of_reaches_negate within with rfl | rfl
  · cases signed
  · cases signed

/-- The sign of the number and that of the negation start a comment. -/
theorem negated_negative_commented :
    Dialect.duckDB.Quiet ∧
    (∀ inner, (Node.expr Balance.reversed).Reaches {} { dialect := .duckDB } true inner →
      inner.Plain .duckDB) ∧
    (Node.expr Balance.reversed).compile {} { dialect := .duckDB } = .ok "SELECT (--1)" ∧
    ∃ read, tokens '"' "SELECT (--1)".toList = some read ∧ commented read = true :=
  ⟨Dialect.quiet_duckDB, fun _ => Balance.plain_reversed, rfl, _,
    tokens_of_unquoted (unquoted_of_all (by decide)), by decide⟩

end SqlQuery
