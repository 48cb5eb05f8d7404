import SqlQuery.Proofs.Render.NeatText

/-!
The text of expressions: it shows those of its parts with plain text between them, and starts with a
sign if the expression does.
-/

namespace SqlQuery

open Text

namespace Survey

variable {survey : Survey} {nodes others : List Node} {text other : String} {texts : List String}

/-! Expressions. -/

/-- The text of what a placeholder or a parameter stands for. -/
def Linked (survey : Survey) (target : Except Error Node) (text : String) : Prop :=
  ∃ node, target = .ok node ∧ survey.NodeText node text

structure LinksGive (survey : Survey) (links : Links) : Prop where
  placeholder : ∀ id name ctx,
    (∀ e, survey.store.resolve id name = .ok e → survey.Sane (.expr e)) → survey.Admits ctx →
    survey.Gives (survey.Linked ((survey.store.resolve id name).map .expr))
      (links.placeholder id name ctx)
  param : ∀ name ctx, (∀ node, survey.settings.param name = .ok node → survey.Sane node) →
    survey.Admits ctx →
    survey.Gives (survey.Linked (survey.settings.param name)) (links.param name ctx)

def ExprGives (survey : Survey) (links : Links) (e : Expr) : Prop :=
  ∀ ctx, survey.Sane (.expr e) → survey.Admits ctx →
    survey.Gives (survey.NodeText (.expr e)) (e.render links ctx)

def RelationGives (survey : Survey) (links : Links) (r : Relation) : Prop :=
  ∀ ctx, survey.Sane (.relation r) → survey.Admits ctx →
    survey.Gives (survey.NodeText (.relation r)) (r.render links ctx)

section Expressions

variable {links : Links} {ctx : Context}

theorem gives_exprs {es : List Expr} (gives : ∀ e ∈ es, survey.ExprGives links e)
    (sane : ∀ e ∈ es, survey.Sane (.expr e)) (admits : survey.Admits ctx) :
    survey.Gives (survey.NeatAll (es.map .expr)) (Expr.renderAll links ctx es) := by
  induction es with
  | nil => exact .pure .nil
  | cons e rest ih =>
      obtain ⟨first, later⟩ := List.forall_mem_cons.mp gives
      obtain ⟨saneFirst, saneLater⟩ := List.forall_mem_cons.mp sane
      refine (first ctx saneFirst admits).bind fun text here => ?_
      exact (ih later saneLater).map fun texts all => .cons here.neat all

theorem Sane.children {e : Expr} (sane : survey.Sane (.expr e))
    (own : e.parts survey.store survey.settings = e.children.map .expr) :
    ∀ child ∈ e.children, survey.Sane (.expr child) := by
  intro child listed
  apply sane.part
  change _ ∈ e.parts survey.store survey.settings
  rw [own]
  exact List.mem_map_of_mem listed

theorem exprGives_value (v : Value) : survey.ExprGives links (.value v) := by
  intro ctx sane admits
  rw [Expr.render, admits.dialect]
  refine .pure ⟨neat_of_parts rfl (neat_literal v), ?_⟩
  rw [(survey.quiet.form v).head?_eq_dash_iff]
  constructor
  · exact .value
  · intro signed
    cases signed
    assumption

theorem head?_quote_ne_dash (name : String) :
    (survey.settings.dialect.quote name).toList.head? ≠ some '-' := by
  rw [survey.quiet.names.toList_quote]
  exact fun same => survey.quiet.mark.2 (Option.some.inj same)

theorem column_neat {owner : RelationId} {name : String} (admits : survey.Admits ctx)
    (quotable : survey.settings.dialect.Quotable name) (given : ctx.column owner name = .ok text) :
    survey.Neat [] text ∧ text.toList.head? ≠ some '-' := by
  have alone : survey.Neat [] (ctx.quote name) ∧ (ctx.quote name).toList.head? ≠ some '-' := by
    rw [Context.quote, admits.dialect]
    exact ⟨neat_quote quotable, head?_quote_ne_dash name⟩
  unfold Context.column at given
  split at given
  · cases given
    exact alone
  · cases given
    exact alone
  · split at given
    · cases given
      exact alone
    · rename_i only covering
      cases given
      have kept : only ∈ ctx.aliases.filter (·.owners.contains owner) := by
        rw [covering]
        exact List.mem_singleton_self only
      have quotableAlias := admits.aliases only (List.mem_filter.mp kept).1
      rw [Context.quote, Context.quote, admits.dialect]
      have point : Fixed "." := .ofList (by decide)
      refine ⟨(neat_quote quotableAlias).between "." point (neat_quote quotable), ?_⟩
      rw [ne_eq, head?_between "." point]
      exact head?_quote_ne_dash only.name
    · cases given

theorem exprGives_column (c : Column) : survey.ExprGives links (.column c) := by
  intro ctx sane admits
  refine .lift fun text given => ?_
  obtain ⟨neat, start⟩ := column_neat admits sane.here given
  exact .of_parts rfl (fun signed => by cases signed) neat start

theorem exprGives_aliased {e : Expr} {name : String} (gives : survey.ExprGives links e) :
    survey.ExprGives links (.aliased e name) := by
  intro ctx sane admits
  have operand := sane.children rfl e List.mem_cons_self
  rw [Expr.render]
  refine (gives ctx operand admits).map fun text given => ?_
  rw [Context.quote, admits.dialect]
  have keyword : Fixed " AS " := .ofList (by decide)
  refine ⟨neat_of_parts rfl (given.neat.between " AS " keyword (neat_quote sane.here)), ?_⟩
  rw [head?_between " AS " keyword, given.signed]
  constructor
  · exact .aliased
  · intro signed
    cases signed
    assumption

theorem exprGives_isDistinctFrom {left right : Expr} (givesLeft : survey.ExprGives links left)
    (givesRight : survey.ExprGives links right) :
    survey.ExprGives links (.isDistinctFrom left right) := by
  intro ctx sane admits
  obtain ⟨first, second⟩ := List.forall_mem_cons.mp (sane.children rfl)
  rw [Expr.render]
  refine (givesLeft ctx first admits).bind fun text given => ?_
  refine (givesRight ctx (second right List.mem_cons_self) admits).map fun other later => ?_
  rw [admits.dialect, survey.quiet.distinct]
  have keyword : Fixed " is distinct from " := .ofList (by decide)
  refine ⟨neat_of_parts rfl (given.neat.between " is distinct from " keyword later.neat), ?_⟩
  rw [head?_between " is distinct from " keyword, given.signed]
  constructor
  · exact .isDistinctFrom
  · intro signed
    cases signed
    assumption

theorem exprGives_negate {e : Expr} (gives : survey.ExprGives links e) :
    survey.ExprGives links (.negate e) := by
  intro ctx sane admits
  rw [Expr.render]
  refine (gives ctx (sane.children rfl e List.mem_cons_self) admits).map fun text given => ?_
  have start : StartsPlain ("(-" ++ text ++ ")") :=
    (StartsPlain.append ⟨'(', rfl, by decide⟩ text).append ")"
  refine ⟨?_, fun dash => absurd dash start.head?_ne_dash, fun signed => by cases signed⟩
  -- The sign of the negation comes right before that of its operand.
  have doubled : text.toList.head? = some '-' → survey.may :=
    fun dash => sane.doubled (.here (given.signed.mp dash))
  refine (Reads.negated survey.quiet.mark given.neat doubled).imp (fun doubles => ?_) id
  rcases (doubles_singleton.mp doubles).cases_parts with ⟨operand, same, signed⟩ | inside
  · cases same
    exact .inr (given.signed.mpr signed)
  · exact .inl inside

theorem neat_null : survey.Neat [] "'<null>')" := by
  have quotation : IsQuotation ("'" ++ "<null>" ++ "'").toList :=
    isQuotation_of_not_mem (by decide)
  have close : Plain ")" := .ofList (by decide)
  exact (neat_of_reads (IsQuotation.reads survey.quiet.mark quotation)).append_plain close

theorem coalesced_opened (neat : survey.Neat nodes text) :
    survey.Opened nodes ("coalesce(" ++ survey.settings.dialect.toText text ++ ", '<null>')") := by
  obtain ⟨before, after, plainBefore, plainAfter, shown⟩ := survey.quiet.toText
  have separator : ", '<null>')" = ", " ++ "'<null>')" := rfl
  have value := (neat.plain_append plainBefore).append_plain plainAfter
  rw [shown, separator, ← String.append_assoc, ← List.append_nil nodes]
  have opened := value.opened "coalesce(" (.ofList (by decide))
  exact opened.between ", " (.ofList (by decide)) neat_null

theorem concatText_opened {separator : Option String} (all : survey.NeatAll nodes texts)
    (given : concatText survey.settings.dialect separator texts = .ok text) :
    survey.Opened nodes text := by
  have mapped := all.map fun nodes text neat => (coalesced_opened neat).neat
  have call {texts : List String} (all : survey.NeatAll nodes texts) :
      survey.Opened nodes (survey.settings.dialect.concat texts) := by
    rw [survey.quiet.concat]
    exact ((all.intercalate joins_comma).opened "concat(" (.ofList (by decide))).closed
  cases all with
  | nil => cases given
  | cons here later =>
      cases later with
      | nil =>
          cases given
          rw [List.append_nil]
          exact coalesced_opened here
      | cons next later =>
          cases separator with
          | none =>
              cases given
              exact call mapped
          | some separator =>
              cases given
              refine call (mapped.intersperse (neat_of_reads ?_))
              exact IsQuotation.reads survey.quiet.mark (isQuotation_text separator)

theorem exprGives_concat {items : List Expr} {separator : Option String}
    (gives : ∀ e ∈ items, survey.ExprGives links e) :
    survey.ExprGives links (.concat items separator) := by
  intro ctx sane admits
  rw [Expr.render]
  refine (gives_exprs gives (sane.children rfl) admits).bind fun texts all => ?_
  refine .lift fun text given => ?_
  rw [admits.dialect] at given
  exact .of_opened rfl (fun signed => by cases signed) (concatText_opened all given)

theorem exprGives_count {argument : Option Expr} {distinct : Bool}
    (gives : ∀ e, argument = some e → survey.ExprGives links e) :
    survey.ExprGives links (.count argument distinct) := by
  intro ctx sane admits
  have head : Plain ("count(" ++ if distinct then "distinct " else "") :=
    (Plain.ofList (by decide)).append_optional (Plain.ofList (by decide))
  have counted {nodes : List Node} {text : String} (neat : survey.Neat nodes text) :
      survey.Opened nodes ("count(" ++ (if distinct then "distinct " else "") ++ text ++ ")") :=
    (neat.opened _ ⟨head, by simp⟩).closed
  rw [Expr.render_count]
  cases argument with
  | none =>
      have star : survey.Neat [] "*" := neat_of_plain (Plain.ofList (by decide))
      exact .pure (.of_opened rfl (fun signed => by cases signed) (counted star))
  | some e =>
      refine (gives e rfl ctx (sane.children rfl e List.mem_cons_self) admits).map
        fun text given => ?_
      exact .of_opened rfl (fun signed => by cases signed) (counted given.neat)

theorem exprGives_call {function : String} {arguments : List Expr}
    (gives : ∀ e ∈ arguments, survey.ExprGives links e) :
    survey.ExprGives links (.call function arguments) := by
  intro ctx sane admits
  have head : Plain (function ++ "(") := Plain.append sane.here (Plain.ofList (by decide))
  rw [Expr.render]
  refine (gives_exprs gives (sane.children rfl) admits).map fun texts all => ?_
  refine .of_opened rfl (fun signed => by cases signed) ?_
  exact ((all.intercalate joins_comma).opened _ ⟨head, by simp⟩).closed

theorem exprGives_binary {operator : BinaryOperator} {arguments : List Expr}
    (gives : ∀ e ∈ arguments, survey.ExprGives links e) :
    survey.ExprGives links (.binary operator arguments) := by
  intro ctx sane admits
  rw [Expr.render]
  refine (gives_exprs gives (sane.children rfl) admits).map fun texts all => ?_
  refine .of_opened rfl (fun signed => by cases signed) ?_
  exact (all.intercalate (joins_operator operator)).enclosed

theorem exprGives_isIn {e : Expr} {list : List Expr} (gives : survey.ExprGives links e)
    (givesList : ∀ e ∈ list, survey.ExprGives links e) :
    survey.ExprGives links (.isIn e list) := by
  intro ctx sane admits
  obtain ⟨first, items⟩ := List.forall_mem_cons.mp (sane.children rfl)
  rw [Expr.render]
  refine (gives ctx first admits).bind fun text given => ?_
  refine (gives_exprs givesList items admits).map fun texts all => ?_
  refine .of_opened rfl (fun signed => by cases signed) ?_
  have list := (given.neat.opened "(" (.ofList (by decide))).between " IN (" (.ofList (by decide))
    (all.intercalate joins_comma)
  exact list.append_plain (.ofList (by decide))

theorem exprGives_cast {e : Expr} {type : SemanticType} (gives : survey.ExprGives links e) :
    survey.ExprGives links (.cast e type) := by
  intro ctx sane admits
  rw [Expr.render]
  refine (gives ctx (sane.children rfl e List.mem_cons_self) admits).map fun text given => ?_
  rw [admits.dialect]
  refine .of_opened rfl (fun signed => by cases signed) ?_
  have keyword : Plain " as " := .ofList (by decide)
  have typed := keyword.append (survey.quiet.typeName type sane.here)
  have whole := (given.neat.opened "cast(" (.ofList (by decide))).append_plain typed
  rw [← String.append_assoc] at whole
  exact whole.closed

/-! Links. -/

theorem nodeText_of_linked {node : Node} {target : Except Error Node}
    (parts : node.parts survey.store survey.settings false = linkedNodes target)
    (other : node.isNegation = false)
    (signed : ∀ inner, target = .ok inner → (inner.Signed survey.store survey.settings ↔
      node.Signed survey.store survey.settings))
    (linked : survey.Linked target text) : survey.NodeText node text := by
  obtain ⟨inner, given, written⟩ := linked
  have only : linkedNodes target = [inner] := by
    rw [given]
    rfl
  refine ⟨neat_of_parts other ?_, written.signed.trans (signed inner given)⟩
  rw [parts, only]
  exact written.neat

theorem Sane.behind {node : Node} {target : Except Error Node} (sane : survey.Sane node)
    (parts : node.parts survey.store survey.settings true = linkedNodes target) :
    ∀ inner, target = .ok inner → survey.Sane inner := by
  intro inner given
  apply sane.part
  rw [parts, given]
  exact List.mem_cons_self

theorem exprGives_placeholder (follow : survey.LinksGive links) (id : PlaceholderId)
    (name : String) : survey.ExprGives links (.placeholder id name) := by
  intro ctx sane admits
  have behind : ∀ e, survey.store.resolve id name = .ok e → survey.Sane (.expr e) := by
    intro e bound
    exact sane.behind rfl (.expr e) (by rw [bound]; rfl)
  rw [Expr.render]
  refine (follow.placeholder id name ctx behind admits).imp
    fun text => nodeText_of_linked rfl rfl ?_
  intro inner given
  cases bound : survey.store.resolve id name with
  | error e =>
      rw [bound] at given
      cases given
  | ok e =>
      rw [bound] at given
      cases given
      refine ⟨.placeholder bound, fun signed => ?_⟩
      cases signed with
      | placeholder other start =>
          cases bound.symm.trans other
          exact start

theorem exprGives_param (follow : survey.LinksGive links) (name : String) :
    survey.ExprGives links (.param name) := by
  intro ctx sane admits
  rw [Expr.render]
  refine (follow.param name ctx (sane.behind rfl) admits).imp
    fun text => nodeText_of_linked rfl rfl ?_
  intro inner given
  refine ⟨.param given, fun signed => ?_⟩
  cases signed with
  | param other start =>
      cases given.symm.trans other
      exact start

theorem relationGives_param (follow : survey.LinksGive links) (p : TableParam) :
    survey.RelationGives links (.param p) := by
  intro ctx sane admits
  rw [Relation.render]
  refine (follow.param p.name ctx (sane.behind rfl) admits).imp
    fun text => nodeText_of_linked rfl rfl ?_
  intro inner given
  refine ⟨.tableParam given, fun signed => ?_⟩
  cases signed with
  | tableParam other start =>
      cases given.symm.trans other
      exact start

/-! Queries inside expressions, and branches. -/

theorem not_signed_of_isQuery {r : Relation} (query : r.isQuery = true) :
    ¬ (Node.relation r).Signed survey.store survey.settings := by
  intro signed
  cases signed with
  | tableAlias => cases query
  | tableParam => cases query

/-- A query never starts with a sign. -/
theorem gives_query {r : Relation} (gives : survey.RelationGives links r)
    (sane : survey.Sane (.relation r)) (admits : survey.Admits ctx) :
    survey.Gives (fun text => survey.Neat [.relation r] text ∧ text.toList.head? ≠ some '-')
      (ctx.query r fun ctx => r.render links ctx) := by
  rw [Context.query_omitted]
  split
  · rename_i query
    refine (gives ctx sane admits).imp fun text given => ⟨given.neat, ?_⟩
    rw [ne_eq, given.signed]
    exact not_signed_of_isQuery query
  · refine (gives _ sane (admits.placed true ctx.inJoin)).bind fun text given => ?_
    have all := given.neat.opened "SELECT * FROM " (.ofList (by decide))
    exact gives_enclose ctx all.neat all.start.head?_ne_dash

theorem exprGives_subquery {r : Relation} (gives : survey.RelationGives links r) :
    survey.ExprGives links (.subquery r) := by
  intro ctx sane admits
  have inner := admits.placed false false
  rw [Expr.render]
  refine (gives_query gives (sane.part List.mem_cons_self) inner).map fun text given => ?_
  exact .of_opened rfl (fun signed => by cases signed) given.1.enclosed

/-- Branches come one after the other, each with letters of its own before it. -/
theorem gives_branches {branches : List (BranchOf Expr)}
    (gives : ∀ b ∈ branches, survey.ExprGives links b.condition ∧ survey.ExprGives links b.result)
    (sane : ∀ e ∈ branches.flatMap fun b => [b.condition, b.result], survey.Sane (.expr e))
    (admits : survey.Admits ctx) :
    survey.Gives (fun text => survey.Neat
        ((branches.flatMap fun b => [b.condition, b.result]).map .expr) text ∧ Follows text)
      (Expr.renderBranches links ctx branches) := by
  induction branches with
  | nil => exact .pure ⟨neat_empty, follows_empty⟩
  | cons b rest ih =>
      obtain ⟨here, later⟩ := List.forall_mem_cons.mp gives
      obtain ⟨own, saneLater⟩ := List.forall_mem_append.mp sane
      obtain ⟨condition, result⟩ := List.forall_mem_cons.mp own
      rw [Expr.renderBranches]
      refine (here.1 ctx condition admits).bind fun text given => ?_
      refine (here.2 ctx (result _ List.mem_cons_self) admits).bind fun other givenResult => ?_
      refine (ih later saneLater).map fun more all => ?_
      have first := (given.neat.opened " WHEN " (.ofList (by decide))).between " THEN "
        (.ofList (by decide)) givenResult.neat
      have whole := first.append all.1 all.2
      exact ⟨whole.neat, whole.start.follows⟩

theorem gives_else {otherwise : Option Expr}
    (gives : ∀ e, otherwise = some e → survey.ExprGives links e)
    (sane : ∀ e ∈ otherwise.toList, survey.Sane (.expr e)) (admits : survey.Admits ctx) :
    survey.Gives (fun text => survey.Neat (otherwise.toList.map .expr) text ∧ Follows text)
      (Expr.renderElse links ctx otherwise) := by
  cases otherwise with
  | none => exact .pure ⟨neat_empty, follows_empty⟩
  | some e =>
      refine (gives e rfl ctx (sane e List.mem_cons_self) admits).map fun text given => ?_
      have whole := given.neat.opened " ELSE " (.ofList (by decide))
      exact ⟨whole.neat, whole.start.follows⟩

theorem exprGives_case {branches : List (BranchOf Expr)} {otherwise : Option Expr}
    (gives : ∀ b ∈ branches, survey.ExprGives links b.condition ∧ survey.ExprGives links b.result)
    (givesElse : ∀ e, otherwise = some e → survey.ExprGives links e) :
    survey.ExprGives links (.case ⟨branches, otherwise⟩) := by
  intro ctx sane admits
  obtain ⟨saneBranches, saneElse⟩ := List.forall_mem_append.mp (sane.children rfl)
  rw [Expr.render_case]
  split
  · exact .throw _
  · refine (gives_branches gives saneBranches admits).bind fun text given => ?_
    refine (gives_else givesElse saneElse admits).map fun other givenElse => ?_
    refine .of_opened rfl (fun signed => by cases signed) ?_
    simp only [Node.parts, Expr.parts, Expr.children, List.map_append]
    have whole := (given.1.opened "CASE" (.ofList (by decide))).append givenElse.1 givenElse.2
    exact whole.append_plain (.ofList (by decide))

theorem exprGives_random : survey.ExprGives links .random := by
  intro ctx sane admits
  have plain := survey.quiet.random
  rw [Expr.render, admits.dialect]
  exact .pure (.of_parts rfl (fun signed => by cases signed) (neat_of_plain plain)
    plain.head?_ne_dash)

theorem exprGives_currentTimestamp : survey.ExprGives links .currentTimestamp := by
  intro ctx sane admits
  have plain := survey.quiet.currentTimestamp
  rw [Expr.render, admits.dialect]
  exact .pure (.of_parts rfl (fun signed => by cases signed) (neat_of_plain plain)
    plain.head?_ne_dash)

end Expressions

end Survey

end SqlQuery
