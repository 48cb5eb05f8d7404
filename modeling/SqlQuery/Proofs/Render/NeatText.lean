import SqlQuery.Proofs.Dialect.Identifier
import SqlQuery.Proofs.Outcome
import SqlQuery.Proofs.Query.Induction
import SqlQuery.Proofs.Render.Signs
import SqlQuery.Proofs.Text.Comments

/-!
Texts made of those of nodes and of plain text between them: what is written of a query in a
dialect whose own texts are plain. They are read with the quotations that were written, and have
the comments of the nodes in them.
-/

namespace SqlQuery

open Text

/-! Dialects and nodes. -/

theorem SetOperator.fixed_keyword (operator : SetOperator) : Fixed operator.keyword := by
  cases operator <;> exact .ofList (by decide)

theorem JoinKind.fixed_separator (kind : JoinKind) : Fixed kind.separator := by
  cases kind <;> exact .ofList (by decide)

def SemanticType.HasPlainName : SemanticType → Prop
  | .unknown name => Plain name
  | _ => True

/-- What the dialect adds of its own is plain text. -/
structure Dialect.Quiet (d : Dialect) : Prop extends d.UsualLiterals where
  names : d.QuotesPlainly
  rows : d.constantRows = rowsText d.literal
  mark : PlainMark d.identifierQuote
  toText : ∃ before after, Plain before ∧ Plain after ∧
    ∀ text, d.toText text = before ++ text ++ after
  typeName : ∀ type : SemanticType, type.HasPlainName → Plain (d.typeName type)
  offsetLimit : ∀ limit, Plain (d.offsetLimit none limit)
  concat : ∀ items, d.concat items = "concat(" ++ ", ".intercalate items ++ ")"
  random : Plain d.random
  currentTimestamp : Plain d.currentTimestamp
  explain : ∀ query, d.explain query = "EXPLAIN " ++ query
  distinct : ∀ a b, d.isDistinctFrom a b = a ++ " is distinct from " ++ b
  placeholderTable : ∀ table ∈ d.placeholderTable, Plain table

def Table.Plain (d : Dialect) (t : Table) : Prop :=
  ∀ segment ∈ t.path.segments, d.Quotable segment

def Expr.Plain (d : Dialect) : Expr → Prop
  | .code _ => False
  | .column c => d.Quotable c.name
  | .aliased _ name => d.Quotable name
  | .call function _ => Text.Plain function
  | .cast _ type => type.HasPlainName
  | _ => True

def Relation.Plain (d : Dialect) : Relation → Prop
  | .table t => t.Plain d
  | .aliased a => d.Quotable a.name
  | .cte c => (∀ name ∈ c.name, Text.Plain name) ∧ ∀ param ∈ c.params.getD [], Text.Plain param
  | _ => True

def Statement.Plain (d : Dialect) : Statement → Prop
  | .create s => s.table.Plain d ∧ (∀ key ∈ s.primaryKeys, d.Quotable key) ∧
      ∀ schema ∈ s.table.schema, ∀ column ∈ schema.columns,
        d.Quotable column.1 ∧ column.2.HasPlainName
  | .drop s => s.table.Plain d
  | .truncate t => t.Plain d
  | .insert s => s.table.Plain d ∧ ∀ column ∈ s.columns.getD [], d.Quotable column
  | .commit => True
  | .explain _ => True

/-- The node has no SQL text taken as it is, the names that it quotes have no quote in them, and
those that it does not quote are plain. -/
def Node.Plain (d : Dialect) : Node → Prop
  | .expr e => e.Plain d
  | .relation r => r.Plain d
  | .statement s => s.Plain d

def Node.isNegation : Node → Bool
  | .expr (.negate _) => true
  | _ => false

/-! Texts of nodes. -/

/-- What stands behind the links of a query in a quiet dialect, and whether a comment may occur in
its text. -/
structure Survey where
  store : Store
  settings : Settings
  quiet : settings.dialect.Quiet
  may : Prop

namespace Survey

variable (survey : Survey)

def mark : Char :=
  survey.settings.dialect.identifierQuote

def Doubles (nodes : List Node) : Prop :=
  ∃ node ∈ nodes, node.DoublesSign survey.store survey.settings false

/-- A text that shows the texts of some nodes. -/
def Neat (nodes : List Node) (text : String) : Prop :=
  Reads survey.mark (survey.Doubles nodes) survey.may text

inductive NeatAll : List Node → List String → Prop
  | nil : NeatAll [] []
  | cons {nodes others text texts} (here : survey.Neat nodes text)
      (later : NeatAll others texts) : NeatAll (nodes ++ others) (text :: texts)

/-- The text of a node: it starts with a sign if the node does. -/
structure NodeText (node : Node) (text : String) : Prop where
  neat : survey.Neat [node] text
  signed : text.toList.head? = some '-' ↔ node.Signed survey.store survey.settings

/-- All that is inside a node is plain, and comments may occur if it has one. -/
structure Sane (node : Node) : Prop where
  plain : ∀ inner, node.Reaches survey.store survey.settings true inner →
    inner.Plain survey.settings.dialect
  doubled : node.DoublesSign survey.store survey.settings true → survey.may

structure Admits (ctx : Context) : Prop where
  dialect : ctx.dialect = survey.settings.dialect
  aliases : ∀ a ∈ ctx.aliases, survey.settings.dialect.Quotable a.name

variable {survey} {nodes others : List Node} {text other : String} {texts : List String}

theorem Admits.placed {ctx : Context} (admits : survey.Admits ctx) (inSelect inJoin : Bool) :
    survey.Admits (ctx.placed inSelect inJoin) :=
  ⟨admits.dialect, admits.aliases⟩

theorem Sane.here {node : Node} (sane : survey.Sane node) : node.Plain survey.settings.dialect :=
  sane.plain node (.self node)

theorem Sane.part {node part : Node} (sane : survey.Sane node)
    (listed : part ∈ node.parts survey.store survey.settings true) : survey.Sane part :=
  ⟨fun inner within => sane.plain inner (.part listed within),
    fun doubles => sane.doubled (.inside listed doubles)⟩

theorem doubles_append : survey.Doubles (nodes ++ others) ↔
    survey.Doubles nodes ∨ survey.Doubles others := by
  simp only [Doubles, List.mem_append, or_and_right, exists_or]

theorem doubles_singleton {node : Node} :
    survey.Doubles [node] ↔ node.DoublesSign survey.store survey.settings false := by
  simp only [Doubles, List.mem_singleton, exists_eq_left]

theorem not_doubles_nil : ¬ survey.Doubles [] := by
  intro doubles
  obtain ⟨node, present, _⟩ := doubles
  cases present

theorem Neat.of_subset (neat : survey.Neat nodes text) (listed : ∀ node ∈ others, node ∈ nodes) :
    survey.Neat others text := by
  refine Reads.imp neat (fun doubles => ?_) id
  obtain ⟨node, present, within⟩ := doubles
  exact ⟨node, listed node present, within⟩

theorem neat_of_reads (reads : Reads survey.mark False survey.may text) : survey.Neat [] text :=
  reads.imp not_doubles_nil id

theorem neat_of_plain (plain : Plain text) : survey.Neat [] text :=
  neat_of_reads (reads_of_plain survey.quiet.mark plain)

theorem neat_empty : survey.Neat [] "" :=
  neat_of_plain plain_empty

theorem Neat.append_plain (neat : survey.Neat nodes text) (plain : Plain other) :
    survey.Neat nodes (text ++ other) :=
  Reads.append_plain survey.quiet.mark neat plain

theorem Neat.plain_append (plain : Plain other) (neat : survey.Neat nodes text) :
    survey.Neat nodes (other ++ text) :=
  Reads.plain_append survey.quiet.mark plain neat

theorem Neat.between (neat : survey.Neat nodes text) (separator : String)
    (fixed : Fixed separator) (next : survey.Neat others other) :
    survey.Neat (nodes ++ others) (text ++ separator ++ other) :=
  (Reads.append_between survey.quiet.mark neat fixed next).imp doubles_append.mp id

theorem Neat.append (neat : survey.Neat nodes text) (next : survey.Neat others other)
    (follows : Follows other) : survey.Neat (nodes ++ others) (text ++ other) := by
  refine (Reads.append survey.quiet.mark neat next ?_).imp doubles_append.mp id
  exact fun _ _ d first => .inr (follows d first)

/-- A text that starts with a plain letter. -/
structure Opened (survey : Survey) (nodes : List Node) (text : String) : Prop where
  neat : survey.Neat nodes text
  start : StartsPlain text

theorem Neat.opened (neat : survey.Neat nodes text) (head : String)
    (fixed : Fixed head) :
    survey.Opened nodes (head ++ text) :=
  ⟨neat.plain_append fixed.plain, fixed.startsPlain.append text⟩

namespace Opened

theorem append_plain (opened : survey.Opened nodes text) (plain : Plain other) :
    survey.Opened nodes (text ++ other) :=
  ⟨opened.neat.append_plain plain, opened.start.append other⟩

theorem closed (opened : survey.Opened nodes text) : survey.Opened nodes (text ++ ")") :=
  opened.append_plain (.ofList (by decide))

theorem between (opened : survey.Opened nodes text) (separator : String)
    (fixed : Fixed separator) (next : survey.Neat others other) :
    survey.Opened (nodes ++ others) (text ++ separator ++ other) :=
  ⟨opened.neat.between separator fixed next, (opened.start.append separator).append other⟩

theorem append (opened : survey.Opened nodes text) (next : survey.Neat others other)
    (follows : Follows other) : survey.Opened (nodes ++ others) (text ++ other) :=
  ⟨opened.neat.append next follows, opened.start.append other⟩

end Opened

theorem Neat.enclosed (neat : survey.Neat nodes text) : survey.Opened nodes ("(" ++ text ++ ")") :=
  (neat.opened "(" (.ofList (by decide))).closed

theorem neat_quote {name : String} (quotable : survey.settings.dialect.Quotable name) :
    survey.Neat [] (survey.settings.dialect.quote name) := by
  refine neat_of_reads ⟨[.quoted survey.mark name.toList], ?_, False.elim,
    fun comment => Bool.noConfusion comment⟩
  have read := tokens_quote_append survey.quiet.names quotable (List.head?_nil.trans_ne (by simp))
  rw [List.append_nil] at read
  rw [mark, read]
  simp [tokens]

theorem neat_literal (v : Value) : survey.Neat [] (survey.settings.dialect.literal v) :=
  neat_of_reads ((survey.quiet.form v).reads survey.quiet.mark)

/-- Texts can be put together with the separator between them. -/
def Joins (survey : Survey) (separator : String) : Prop :=
  ∀ ⦃nodes others text other⦄, survey.Neat nodes text → survey.Neat others other →
    survey.Neat (nodes ++ others) (text ++ separator ++ other)

theorem joins_of_fixed {separator : String} (fixed : Fixed separator) :
    survey.Joins separator :=
  fun _ _ _ _ neat next => neat.between separator fixed next

theorem joins_comma : survey.Joins ", " :=
  joins_of_fixed (.ofList (by decide))

theorem joins_and : survey.Joins " AND " :=
  joins_of_fixed (.ofList (by decide))

theorem neat_symbol (operator : BinaryOperator) : survey.Neat [] operator.symbol := by
  cases operator with
  | sub => exact neat_of_reads (reads_dash survey.quiet.mark)
  | _ => exact neat_of_plain (Plain.ofList (by decide))

theorem joins_operator (operator : BinaryOperator) :
    survey.Joins (" " ++ operator.symbol ++ " ") := by
  intro nodes others text other neat next
  have first := neat.between " " (.ofList (by decide)) (neat_symbol operator)
  rw [List.append_nil] at first
  have whole := first.between " " (.ofList (by decide)) next
  simpa only [String.append_assoc] using whole

namespace NeatAll

theorem singleton (neat : survey.Neat nodes text) : survey.NeatAll nodes [text] := by
  rw [← List.append_nil nodes]
  exact .cons neat .nil

theorem append {more : List String} (all : survey.NeatAll nodes texts)
    (rest : survey.NeatAll others more) : survey.NeatAll (nodes ++ others) (texts ++ more) := by
  induction all with
  | nil => exact rest
  | cons here _ ih =>
      rw [List.append_assoc]
      exact .cons here ih

theorem of_forall (all : ∀ text ∈ texts, survey.Neat [] text) : survey.NeatAll [] texts := by
  induction texts with
  | nil => exact .nil
  | cons text rest ih =>
      obtain ⟨here, later⟩ := List.forall_mem_cons.mp all
      exact .cons here (ih later)

theorem map {f : String → String}
    (keeps : ∀ nodes text, survey.Neat nodes text → survey.Neat nodes (f text))
    (all : survey.NeatAll nodes texts) : survey.NeatAll nodes (texts.map f) := by
  induction all with
  | nil => exact .nil
  | cons here _ ih => exact .cons (keeps _ _ here) ih

theorem intersperse {separator : String} (neat : survey.Neat [] separator)
    (all : survey.NeatAll nodes texts) : survey.NeatAll nodes (texts.intersperse separator) := by
  induction all with
  | nil => exact .nil
  | cons here later ih =>
      cases later with
      | nil => exact .cons here .nil
      | cons next later =>
          have between := NeatAll.cons neat ih
          exact .cons here between

theorem intercalate {separator : String} (joins : survey.Joins separator)
    (all : survey.NeatAll nodes texts) : survey.Neat nodes (separator.intercalate texts) := by
  induction all with
  | nil =>
      rw [String.intercalate_nil]
      exact neat_empty
  | cons here later ih =>
      cases later with
      | nil =>
          rw [String.intercalate_singleton, List.append_nil]
          exact here
      | cons next later =>
          rw [String.intercalate_cons_cons]
          exact joins here ih

end NeatAll

/-! Nodes and their parts. -/

section Parts

variable {node : Node}

theorem neat_of_parts (other : node.isNegation = false)
    (neat : survey.Neat (node.parts survey.store survey.settings false) text) :
    survey.Neat [node] text := by
  refine Reads.imp neat (fun doubles => ?_) id
  rcases (doubles_singleton.mp doubles).cases_parts with ⟨e, same, _⟩ | inside
  · rw [same] at other
    cases other
  · exact inside

/-- The text of a node that starts with a letter of its own. -/
theorem NodeText.of_parts (other : node.isNegation = false)
    (unsigned : ¬ node.Signed survey.store survey.settings)
    (neat : survey.Neat (node.parts survey.store survey.settings false) text)
    (start : text.toList.head? ≠ some '-') : survey.NodeText node text :=
  ⟨neat_of_parts other neat, fun dash => absurd dash start, fun signed => absurd signed unsigned⟩

theorem NodeText.of_opened (other : node.isNegation = false)
    (unsigned : ¬ node.Signed survey.store survey.settings)
    (opened : survey.Opened (node.parts survey.store survey.settings false) text) :
    survey.NodeText node text :=
  .of_parts other unsigned opened.neat opened.start.head?_ne_dash

end Parts

/-! Writing. -/

/-- The definitions for the WITH clause have plain heads, and bodies that can be read. -/
def NeatDraft (survey : Survey) (draft : Draft) : Prop :=
  ∀ definition ∈ draft.definitions, Plain definition.1 ∧ survey.Neat [] definition.2

/-- On drafts of that kind the step leaves one, and comes to such results only. -/
def Gives (survey : Survey) (good : α → Prop) (x : Rendering α) : Prop :=
  ∀ draft a final, survey.NeatDraft draft → x.outcome draft = (.ok a, final) →
    good a ∧ survey.NeatDraft final

namespace Gives

variable {good : α → Prop} {fine : β → Prop} {x : Rendering α}

theorem pure {a : α} (holds : good a) : survey.Gives good (Pure.pure a : Rendering α) := by
  intro draft b final neat outcome
  cases outcome
  exact ⟨holds, neat⟩

theorem throw (e : Error) : survey.Gives good (MonadExcept.throw e : Rendering α) := by
  intro draft a final _ outcome
  cases outcome

theorem lift {result : Except Error α} (holds : ∀ a, result = .ok a → good a) :
    survey.Gives good (liftM result : Rendering α) := by
  intro draft a final neat outcome
  rw [ExceptT.outcome_lift] at outcome
  obtain ⟨given, rfl⟩ := Prod.mk.inj outcome
  exact ⟨holds a given, neat⟩

theorem bind {f : α → Rendering β} (first : survey.Gives good x)
    (second : ∀ a, good a → survey.Gives fine (f a)) : survey.Gives fine (x >>= f) := by
  intro draft b final neat outcome
  obtain ⟨a, middle, started, finished⟩ := ExceptT.outcome_bind_eq_ok.mp outcome
  obtain ⟨holds, neatMiddle⟩ := first draft a middle neat started
  exact second a holds middle b final neatMiddle finished

theorem lift_bind {result : Except Error α} {f : α → Rendering β}
    (second : ∀ a, result = .ok a → survey.Gives fine (f a)) :
    survey.Gives fine (liftM result >>= f) :=
  (lift fun _ => id).bind second

theorem imp {better : α → Prop} (gives : survey.Gives better x)
    (implies : ∀ a, better a → good a) : survey.Gives good x := by
  intro draft a final neat outcome
  obtain ⟨holds, neatFinal⟩ := gives draft a final neat outcome
  exact ⟨implies a holds, neatFinal⟩

theorem map {f : α → β} (gives : survey.Gives good x) (holds : ∀ a, good a → fine (f a)) :
    survey.Gives fine (x >>= fun a => Pure.pure (f a)) :=
  gives.bind fun a given => pure (holds a given)

theorem newName : survey.Gives Plain Rendering.newName := by
  intro draft name final neat outcome
  cases outcome
  exact ⟨(Plain.ofList (by decide)).append (plain_toString _), neat⟩

end Gives

theorem mem_of_mem_define {head body : String} {definitions : List (String × String)}
    {definition : String × String} (listed : definition ∈ Draft.define head body definitions) :
    definition = (head, body) ∨ definition ∈ definitions := by
  induction definitions with
  | nil => exact .inl (List.mem_singleton.mp listed)
  | cons first rest ih =>
      rw [Draft.define] at listed
      split at listed
      · rename_i same
        rcases List.mem_cons.mp listed with rfl | listed
        · exact .inl (by rw [same])
        · exact .inr (List.mem_cons_of_mem _ listed)
      · rcases List.mem_cons.mp listed with rfl | listed
        · exact .inr List.mem_cons_self
        · exact (ih listed).imp_right (List.mem_cons_of_mem _)

theorem gives_define {head body : String} (plain : Plain head) (neat : survey.Neat [] body) :
    survey.Gives (fun _ => True) (Rendering.define head body) := by
  intro draft _ final neatDraft outcome
  cases outcome
  refine ⟨trivial, ?_⟩
  intro definition listed
  rcases mem_of_mem_define listed with rfl | listed
  · exact ⟨plain, neat⟩
  · exact neatDraft definition listed

/-- A query is put into parentheses, or stays as it is. -/
theorem gives_enclose {sql : String} (ctx : Context) (neat : survey.Neat nodes sql)
    (start : sql.toList.head? ≠ some '-') :
    survey.Gives (fun text => survey.Neat nodes text ∧ text.toList.head? ≠ some '-')
      (ctx.enclose sql) := by
  rw [Context.enclose]
  split
  · refine Gives.newName.map fun name plain => ?_
    have close : Plain ") " := .ofList (by decide)
    have whole := ((neat.opened "(" (.ofList (by decide))).append_plain close).append_plain plain
    exact ⟨whole.neat, whole.start.head?_ne_dash⟩
  · split
    · exact .pure ⟨neat.enclosed.neat, neat.enclosed.start.head?_ne_dash⟩
    · exact .pure ⟨neat, start⟩

end Survey

end SqlQuery
