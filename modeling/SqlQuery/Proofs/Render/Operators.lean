import SqlQuery.Proofs.Dialect.Identifier
import SqlQuery.Proofs.Dialect.Literal
import SqlQuery.Proofs.Render.Equations
import SqlQuery.Proofs.Render.Outcome
import SqlQuery.Query.Equality

/-!
Columns and literals under operators, IN lists and CASE. Their text can be read in one way only: in
front of whatever may follow an operand, it determines the expression and where it ends.
-/

namespace SqlQuery

open Text

namespace Expr

/-- The expressions of operators, with columns that do not have the mark in their names. -/
inductive Operation (mark : Char) : Expr → Prop
  | value {v} (basic : v.isBasic = true) : Operation mark (.value v)
  | column {source name} (free : mark ∉ name.toList) : Operation mark (.column ⟨source, name⟩)
  | binary {operator arguments} (several : 2 ≤ arguments.length)
      (operands : ∀ e ∈ arguments, Operation mark e) : Operation mark (.binary operator arguments)
  | negate {e} (operand : Operation mark e) : Operation mark (.negate e)
  | isIn {e list} (operand : Operation mark e) (items : ∀ e ∈ list, Operation mark e) :
      Operation mark (.isIn e list)
  | case {branches otherwise} (some : branches ≠ [])
      (conditions : ∀ b ∈ branches, Operation mark b.condition)
      (results : ∀ b ∈ branches, Operation mark b.result)
      (default : ∀ e ∈ otherwise, Operation mark e) : Operation mark (.case ⟨branches, otherwise⟩)

mutual

/-- The text of an operation where no alias is in scope. -/
def spelling (d : Dialect) : Expr → String
  | .value v => d.literal v
  | .column ⟨_, name⟩ => d.quote name
  | .binary operator arguments =>
      "(" ++ (" " ++ operator.symbol ++ " ").intercalate (spellings d arguments) ++ ")"
  | .negate e => "(-" ++ e.spelling d ++ ")"
  | .isIn e list => "(" ++ e.spelling d ++ " IN (" ++ ", ".intercalate (spellings d list) ++ "))"
  | .case ⟨branches, otherwise⟩ =>
      let otherwise := match otherwise with
        | none => ""
        | some e => " ELSE " ++ e.spelling d
      "CASE" ++ branchSpelling d branches ++ otherwise ++ " END"
  | _ => ""

def spellings (d : Dialect) : List Expr → List String
  | [] => []
  | e :: rest => e.spelling d :: spellings d rest

def branchSpelling (d : Dialect) : List (BranchOf Expr) → String
  | [] => ""
  | ⟨condition, result⟩ :: rest =>
      " WHEN " ++ condition.spelling d ++ " THEN " ++ result.spelling d ++ branchSpelling d rest

end

theorem spellings_eq_map (d : Dialect) (es : List Expr) : spellings d es = es.map (spelling d) := by
  induction es with
  | nil => rfl
  | cons e rest ih => rw [spellings, ih, List.map_cons]

section Rendered

variable {links : Links} {ctx : Context}

theorem renderAll_spellings {es : List Expr}
    (rendered : ∀ e ∈ es, e.render links ctx = pure (e.spelling ctx.dialect)) :
    Expr.renderAll links ctx es = pure (spellings ctx.dialect es) := by
  induction es with
  | nil => rfl
  | cons e rest ih =>
      obtain ⟨here, later⟩ := List.forall_mem_cons.mp rendered
      simp only [Expr.renderAll, here, ih later, pure_bind, spellings]

theorem renderBranches_spelling {branches : List (BranchOf Expr)}
    (conditions : ∀ b ∈ branches, b.condition.render links ctx =
      pure (b.condition.spelling ctx.dialect))
    (results : ∀ b ∈ branches, b.result.render links ctx = pure (b.result.spelling ctx.dialect)) :
    Expr.renderBranches links ctx branches = pure (branchSpelling ctx.dialect branches) := by
  induction branches with
  | nil => rfl
  | cons b rest ih =>
      obtain ⟨condition, conditions⟩ := List.forall_mem_cons.mp conditions
      obtain ⟨result, results⟩ := List.forall_mem_cons.mp results
      simp only [Expr.renderBranches, condition, result, ih conditions results, pure_bind,
        branchSpelling]

theorem Operation.render_eq {mark : Char} {e : Expr} (operation : e.Operation mark)
    (unaliased : ctx.aliases = []) : e.render links ctx = pure (e.spelling ctx.dialect) := by
  induction operation with
  | value => simp only [Expr.render, spelling]
  | column =>
      simp only [Expr.render, Context.column, unaliased, spelling]
      rfl
  | binary several operands ih =>
      simp only [Expr.render, renderAll_spellings ih, pure_bind, spelling]
  | negate operand ih => simp only [Expr.render, ih, pure_bind, spelling]
  | isIn operand items ih ihItems =>
      simp only [Expr.render, ih, renderAll_spellings ihItems, pure_bind, spelling]
  | @case branches otherwise some conditions results default ihConditions ihResults ihDefault =>
      have written := renderBranches_spelling ihConditions ihResults
      rw [Expr.render_case, if_neg (by simpa using some), written]
      cases otherwise with
      | none => simp only [Expr.renderElse, pure_bind, spelling]
      | some e => simp only [Expr.renderElse, ihDefault e rfl, pure_bind, spelling]

end Rendered

/-! Texts as lists of characters. -/

def tailLetters (d : Dialect) (separator : List Char) (es : List Expr) : List Char :=
  es.flatMap fun e => separator ++ (e.spelling d).toList

def operatorLetters (operator : BinaryOperator) : List Char :=
  ' ' :: (operator.symbol.toList ++ [' '])

def defaultSpelling (d : Dialect) : Option Expr → String
  | none => ""
  | some e => " ELSE " ++ e.spelling d

section Letters

variable {d : Dialect}

theorem toList_intercalate_spellings (separator : String) (e : Expr) (rest : List Expr) :
    (separator.intercalate (spellings d (e :: rest))).toList =
      (e.spelling d).toList ++ tailLetters d separator.toList rest := by
  rw [String.toList_intercalate, spellings_eq_map, List.map_cons, List.map_cons,
    List.intercalate_cons_eq_append_flatMap, List.flatMap_map, List.flatMap_map, tailLetters]

theorem toList_spelling_binary (operator : BinaryOperator) (e : Expr) (rest : List Expr) :
    ((Expr.binary operator (e :: rest)).spelling d).toList =
      '(' :: ((e.spelling d).toList ++
        (tailLetters d (operatorLetters operator) rest ++ [')'])) := by
  rw [spelling, String.toList_append, String.toList_append, toList_intercalate_spellings,
    String.toList_append, String.toList_append, List.append_assoc, List.append_assoc,
    List.append_assoc]
  rfl

theorem toList_spelling_negate (e : Expr) :
    (e.negate.spelling d).toList = '(' :: '-' :: ((e.spelling d).toList ++ [')']) := by
  rw [spelling, String.toList_append, String.toList_append, List.append_assoc]
  rfl

theorem toList_spelling_isIn (e : Expr) (list : List Expr) :
    ((e.isIn list).spelling d).toList =
      '(' :: ((e.spelling d).toList ++ ' ' :: ("IN".toList ++ ' ' :: '(' ::
        ((", ".intercalate (spellings d list)).toList ++ [')', ')']))) := by
  rw [spelling]
  simp only [String.toList_append, List.append_assoc]
  rfl

theorem append_spelling_binary (operator : BinaryOperator) (e : Expr) (es : List Expr)
    (rest : List Char) :
    ((Expr.binary operator (e :: es)).spelling d).toList ++ rest =
      '(' :: ((e.spelling d).toList ++
        (tailLetters d (operatorLetters operator) es ++ ')' :: rest)) := by
  rw [toList_spelling_binary, List.cons_append, List.append_assoc, List.append_assoc]
  rfl

theorem append_spelling_negate (e : Expr) (rest : List Char) :
    (e.negate.spelling d).toList ++ rest =
      '(' :: '-' :: ((e.spelling d).toList ++ ')' :: rest) := by
  rw [toList_spelling_negate, List.cons_append, List.cons_append, List.append_assoc]
  rfl

theorem append_spelling_isIn (e : Expr) (list : List Expr) (rest : List Char) :
    ((e.isIn list).spelling d).toList ++ rest =
      '(' :: ((e.spelling d).toList ++ ' ' :: ("IN".toList ++ ' ' :: '(' ::
        ((", ".intercalate (spellings d list)).toList ++ ')' :: ')' :: rest))) := by
  rw [toList_spelling_isIn]
  simp only [List.cons_append, List.append_assoc, List.nil_append]

theorem toList_defaultSpelling_some (e : Expr) :
    (defaultSpelling d (some e)).toList = " ELSE ".toList ++ (e.spelling d).toList := by
  rw [defaultSpelling, String.toList_append]

theorem toList_spelling_case (branches : List (BranchOf Expr)) (otherwise : Option Expr) :
    ((Expr.case ⟨branches, otherwise⟩).spelling d).toList =
      "CASE".toList ++ ((branchSpelling d branches).toList ++
        ((defaultSpelling d otherwise).toList ++ " END".toList)) := by
  cases otherwise with
  | none => simp only [spelling, defaultSpelling, String.toList_append, List.append_assoc]
  | some e => simp only [spelling, defaultSpelling, String.toList_append, List.append_assoc]

theorem toList_branchSpelling_cons (condition result : Expr) (rest : List (BranchOf Expr)) :
    (branchSpelling d (⟨condition, result⟩ :: rest)).toList =
      " WHEN ".toList ++ ((condition.spelling d).toList ++
        (" THEN ".toList ++ ((result.spelling d).toList ++ (branchSpelling d rest).toList))) := by
  rw [branchSpelling]
  simp only [String.toList_append, List.append_assoc]

end Letters

end Expr

/-! What an operation starts with. -/

def startsLiteral (c : Char) : Bool :=
  c.isDigit || "-'NTF".toList.contains c

/-- Names and literals follow the rules that hold unless a dialect has its own, and its quote
starts no operation other than a column, and ends no list. -/
structure Dialect.OwnQuote (d : Dialect) : Prop where
  names : d.QuotesPlainly
  literal : d.literal = literalText d.timestampLiteral d.bytesLiteral
  start : startsLiteral d.identifierQuote = false
  apart : d.identifierQuote ∉ "()C".toList

theorem literal_start {timestamp : Timestamp → String} {bytes : List UInt8 → String} {v : Value}
    (basic : v.isBasic = true) :
    ∃ c rest, (Dialect.literalText timestamp bytes v).toList = c :: rest ∧
      startsLiteral c = true ∧
      (c = '-' ∨ c.isDigit = true → ∃ n, v = .int n) := by
  cases v with
  | null =>
      exact ⟨'N', "ULL".toList, by simp [Dialect.literalText], by decide,
        fun number => absurd number (by decide)⟩
  | bool b =>
      cases b with
      | false =>
          exact ⟨'F', "ALSE".toList, by simp [Dialect.literalText], by decide,
            fun number => absurd number (by decide)⟩
      | true =>
          exact ⟨'T', "RUE".toList, by simp [Dialect.literalText], by decide,
            fun number => absurd number (by decide)⟩
  | int n =>
      obtain ⟨c, rest, written, number⟩ := toString_start n.toInt
      refine ⟨c, rest, written, ?_, fun _ => ⟨n, rfl⟩⟩
      rcases number with rfl | digit
      · decide
      · simp [startsLiteral, digit]
  | text text =>
      refine ⟨'\'', doubled '\'' text.toList ++ ['\''], ?_, by decide,
        fun number => absurd number (by decide)⟩
      simp only [Dialect.literalText, Dialect.textLiteral, String.toList_append,
        String.toList_ofList]
      rfl
  | float x => cases basic
  | timestamp t => cases basic
  | bytes b => cases basic

namespace Expr

inductive Kind where
  | name
  | literal
  | choice
  | group

def kind : Expr → Kind
  | .column _ => .name
  | .value _ => .literal
  | .case _ => .choice
  | _ => .group

/-- The kind of the operations that start with a character. -/
def Kind.ofStart (mark c : Char) : Kind :=
  if c = mark then .name
  else if c = '(' then .group
  else if c = 'C' then .choice
  else .literal

theorem spelling_value {d : Dialect} (own : d.OwnQuote) (v : Value) :
    (Expr.value v).spelling d = Dialect.literalText d.timestampLiteral d.bytesLiteral v := by
  rw [spelling, own.literal]

section Start

variable {d : Dialect} (own : d.OwnQuote) {e f : Expr} {c : Char} {rest after : List Char}

include own

theorem ofStart_literal (start : startsLiteral c = true) :
    Kind.ofStart d.identifierQuote c = .literal ∧ c ≠ ')' := by
  have other (x : Char) (reserved : startsLiteral x = false) : c ≠ x := by
    rintro rfl
    rw [start] at reserved
    cases reserved
  refine ⟨?_, other ')' (by decide)⟩
  rw [Kind.ofStart, if_neg (other _ own.start), if_neg (other '(' (by decide)),
    if_neg (other 'C' (by decide))]

theorem Operation.start (operation : e.Operation d.identifierQuote) :
    ∃ c rest, (e.spelling d).toList = c :: rest ∧ Kind.ofStart d.identifierQuote c = e.kind ∧
      c ≠ ')' := by
  have other (c : Char) (reserved : c ∈ "()C".toList) : c ≠ d.identifierQuote := by
    rintro rfl
    exact own.apart reserved
  have group : Kind.ofStart d.identifierQuote '(' = .group := if_neg (other '(' (by decide))
  cases operation with
  | @value v basic =>
      obtain ⟨c, rest, written, start, _⟩ := literal_start basic
      rw [spelling_value own]
      exact ⟨c, rest, written, ofStart_literal own start⟩
  | column =>
      refine ⟨d.identifierQuote, _, own.names.toList_quote _, if_pos rfl, ?_⟩
      exact (other ')' (by decide)).symm
  | @binary operator arguments several =>
      cases arguments with
      | nil => cases several
      | cons e rest => exact ⟨'(', _, toList_spelling_binary operator e rest, group, by decide⟩
  | negate => exact ⟨'(', _, toList_spelling_negate _, group, by decide⟩
  | isIn => exact ⟨'(', _, toList_spelling_isIn _ _, group, by decide⟩
  | case =>
      refine ⟨'C', _, toList_spelling_case _ _, ?_, by decide⟩
      simp [Kind.ofStart, other 'C' (by decide), kind]

theorem Operation.kind_eq (first : e.Operation d.identifierQuote)
    (second : f.Operation d.identifierQuote)
    (same : (e.spelling d).toList ++ rest = (f.spelling d).toList ++ after) : e.kind = f.kind := by
  obtain ⟨c, text, written, kind, _⟩ := first.start own
  obtain ⟨x, other, otherWritten, otherKind, _⟩ := second.start own
  rw [written, otherWritten] at same
  cases (List.cons.inj same).1
  exact kind.symm.trans otherKind

/-- Only a number starts like one. -/
theorem Operation.int_of_start (operation : e.Operation d.identifierQuote)
    (written : (e.spelling d).toList = c :: rest) (number : c = '-' ∨ c.isDigit = true) :
    ∃ n, e = .value (.int n) := by
  obtain ⟨x, text, start, kind, _⟩ := operation.start own
  rw [written] at start
  cases start
  have literal : startsLiteral c = true := by
    rcases number with rfl | digit
    · decide
    · simp [startsLiteral, digit]
  rw [(ofStart_literal own literal).1] at kind
  cases operation with
  | value basic =>
      rw [spelling_value own] at written
      obtain ⟨x, text, start, _, int⟩ := literal_start basic
      cases written.symm.trans start
      obtain ⟨n, same⟩ := int number
      exact ⟨n, congrArg _ same⟩
  | column => cases kind
  | binary => cases kind
  | negate => cases kind
  | isIn => cases kind
  | case => cases kind

end Start

end Expr

theorem BinaryOperator.ofSymbol?_symbol (operator : BinaryOperator) :
    ofSymbol? operator.symbol = some operator := by
  cases operator <;> decide

theorem BinaryOperator.symbol_injective {operator other : BinaryOperator}
    (same : operator.symbol = other.symbol) : operator = other := by
  have found := congrArg ofSymbol? same
  rw [ofSymbol?_symbol, ofSymbol?_symbol] at found
  exact Option.some.inj found

theorem BinaryOperator.blank_not_mem_symbol (operator : BinaryOperator) :
    ' ' ∉ operator.symbol.toList := by
  cases operator <;> decide

theorem symbol_ne_in (operator : BinaryOperator) {rest after : List Char} :
    operator.symbol.toList ++ ' ' :: rest ≠ "IN".toList ++ ' ' :: after := by
  intro same
  have symbol := (append_mark_inj operator.blank_not_mem_symbol (by decide) same).1
  cases operator <;> revert symbol <;> decide

/-- The digits of a number do not end both at a parenthesis and at a blank. -/
theorem negated_ne_number (m n : Int) (rest after : List Char) :
    '-' :: ((toString m).toList ++ ')' :: rest) ≠ (toString n).toList ++ ' ' :: after := by
  intro same
  have read := congrArg readInt same
  rw [readInt_toString n (ends_cons (.inl rfl)), readInt, if_pos rfl] at read
  obtain ⟨⟨k, text⟩, found, equal⟩ := Option.map_eq_some_iff.mp read
  cases m with
  | ofNat m =>
      change readNat ((toString (m : Int)).toList ++ ')' :: rest) = _ at found
      rw [toList_toString_ofNat, readNat_toDigits m (ends_cons (.inr (.inr rfl)))] at found
      cases found
      cases equal
  | negSucc m =>
      rw [toList_toString_negSucc] at found
      cases found

namespace Expr

section Determined

variable {d : Dialect}

/-- In front of what may follow an operand, the text is that of no other operation, and ends where
it ends. -/
def Determined (d : Dialect) (e : Expr) : Prop :=
  ∀ ⦃f rest after⦄, f.Operation d.identifierQuote → Ends rest → Ends after →
    (e.spelling d).toList ++ rest = (f.spelling d).toList ++ after →
      (∀ env, e.sameIn env f = true) ∧ rest = after

theorem tailLetters_cons (separator : List Char) (e : Expr) (es : List Expr) (rest : List Char) :
    tailLetters d separator (e :: es) ++ rest =
      separator ++ ((e.spelling d).toList ++ (tailLetters d separator es ++ rest)) := by
  simp only [tailLetters, List.flatMap_cons, List.append_assoc]

theorem tailLetters_operator (operator : BinaryOperator) (e : Expr) (es : List Expr)
    (rest : List Char) :
    tailLetters d (operatorLetters operator) (e :: es) ++ rest =
      ' ' :: (operator.symbol.toList ++ ' ' ::
        ((e.spelling d).toList ++ (tailLetters d (operatorLetters operator) es ++ rest))) := by
  rw [tailLetters_cons, operatorLetters, List.cons_append, List.append_assoc]
  rfl

theorem ends_tailLetters {c : Char} (mark : c = ' ' ∨ c = ',') (more : List Char) (es : List Expr)
    (rest : List Char) : Ends (tailLetters d (c :: more) es ++ ')' :: rest) := by
  cases es with
  | nil => exact ends_cons (.inr (.inr rfl))
  | cons e es =>
      rw [tailLetters_cons]
      exact ends_cons (mark.imp_right .inl)

theorem exists_cons_cons_of_two_le {es : List Expr} (several : 2 ≤ es.length) :
    ∃ first second rest, es = first :: second :: rest := by
  match es, several with
  | first :: second :: rest, _ => exact ⟨first, second, rest, rfl⟩

theorem tails_determined {c : Char} (mark : c = ' ' ∨ c = ',') {more rest after : List Char}
    {es fs : List Expr} (determined : ∀ e ∈ es, e.Determined d)
    (operations : ∀ f ∈ fs, f.Operation d.identifierQuote)
    (same : tailLetters d (c :: more) es ++ ')' :: rest =
      tailLetters d (c :: more) fs ++ ')' :: after) :
    (∀ env, Expr.sameAll env es fs = true) ∧ rest = after := by
  have unclosed : c ≠ ')' := by
    rcases mark with rfl | rfl
    · decide
    · decide
  induction es generalizing fs with
  | nil =>
      cases fs with
      | nil => exact ⟨fun _ => by simp only [Expr.sameAll], (List.cons.inj same).2⟩
      | cons f fs =>
          rw [tailLetters_cons] at same
          exact absurd (List.cons.inj same).1.symm unclosed
  | cons e es ih =>
      cases fs with
      | nil =>
          rw [tailLetters_cons] at same
          exact absurd (List.cons.inj same).1 unclosed
      | cons f fs =>
          obtain ⟨first, determined⟩ := List.forall_mem_cons.mp determined
          obtain ⟨other, operations⟩ := List.forall_mem_cons.mp operations
          rw [tailLetters_cons, tailLetters_cons, List.append_cancel_left_eq] at same
          obtain ⟨equal, tails⟩ := first other (ends_tailLetters mark more es rest)
            (ends_tailLetters mark more fs after) same
          obtain ⟨equals, ends⟩ := ih determined operations tails
          exact ⟨fun env => by simp only [Expr.sameAll, equal env, equals env, Bool.and_self], ends⟩

theorem items_determined (own : d.OwnQuote) {rest after : List Char} {es fs : List Expr}
    (operations : ∀ e ∈ es, e.Operation d.identifierQuote) (determined : ∀ e ∈ es, e.Determined d)
    (others : ∀ f ∈ fs, f.Operation d.identifierQuote)
    (same : (", ".intercalate (spellings d es)).toList ++ ')' :: rest =
      (", ".intercalate (spellings d fs)).toList ++ ')' :: after) :
    (∀ env, Expr.sameAll env es fs = true) ∧ rest = after := by
  cases es with
  | nil =>
      cases fs with
      | nil =>
          rw [List.append_cancel_left_eq] at same
          exact ⟨fun _ => by simp only [Expr.sameAll], (List.cons.inj same).2⟩
      | cons f fs =>
          obtain ⟨c, text, written, _, unclosed⟩ := (others f List.mem_cons_self).start own
          rw [toList_intercalate_spellings, written] at same
          exact absurd (List.cons.inj same).1.symm unclosed
  | cons e es =>
      cases fs with
      | nil =>
          obtain ⟨c, text, written, _, unclosed⟩ := (operations e List.mem_cons_self).start own
          rw [toList_intercalate_spellings, written] at same
          exact absurd (List.cons.inj same).1 unclosed
      | cons f fs =>
          obtain ⟨first, determined⟩ := List.forall_mem_cons.mp determined
          obtain ⟨other, others⟩ := List.forall_mem_cons.mp others
          rw [toList_intercalate_spellings, toList_intercalate_spellings, List.append_assoc,
            List.append_assoc] at same
          obtain ⟨equal, tails⟩ := first other (ends_tailLetters (.inr rfl) [' '] es rest)
            (ends_tailLetters (.inr rfl) [' '] fs after) same
          obtain ⟨equals, ends⟩ := tails_determined (.inr rfl) determined others tails
          exact ⟨fun env => by simp only [Expr.sameAll, equal env, equals env, Bool.and_self], ends⟩

theorem ends_branchSpelling (bs : List (BranchOf Expr)) (rest : List Char) :
    Ends ((branchSpelling d bs).toList ++ (" E".toList ++ rest)) := by
  cases bs with
  | nil => exact ends_cons (.inl rfl)
  | cons b bs =>
      rw [toList_branchSpelling_cons]
      exact ends_cons (.inl rfl)

/-- Nothing but another branch starts like a branch. -/
theorem branches_determined {rest after : List Char} {bs cs : List (BranchOf Expr)}
    (conditions : ∀ b ∈ bs, b.condition.Determined d) (results : ∀ b ∈ bs, b.result.Determined d)
    (otherConditions : ∀ b ∈ cs, b.condition.Operation d.identifierQuote)
    (otherResults : ∀ b ∈ cs, b.result.Operation d.identifierQuote)
    (same : (branchSpelling d bs).toList ++ (" E".toList ++ rest) =
      (branchSpelling d cs).toList ++ (" E".toList ++ after)) :
    (∀ env, Expr.sameBranches env bs cs = true) ∧ rest = after := by
  have ended (more : List Char) : Ends (" THEN ".toList ++ more) := ends_cons (.inl rfl)
  induction bs generalizing cs with
  | nil =>
      cases cs with
      | nil =>
          rw [List.append_cancel_left_eq, List.append_cancel_left_eq] at same
          exact ⟨fun _ => by simp only [Expr.sameBranches], same⟩
      | cons c cs =>
          rw [toList_branchSpelling_cons] at same
          cases same
  | cons b bs ih =>
      cases cs with
      | nil =>
          rw [toList_branchSpelling_cons] at same
          cases same
      | cons c cs =>
          obtain ⟨condition, conditions⟩ := List.forall_mem_cons.mp conditions
          obtain ⟨result, results⟩ := List.forall_mem_cons.mp results
          obtain ⟨otherCondition, otherConditions⟩ := List.forall_mem_cons.mp otherConditions
          obtain ⟨otherResult, otherResults⟩ := List.forall_mem_cons.mp otherResults
          rw [toList_branchSpelling_cons, toList_branchSpelling_cons] at same
          simp only [List.append_assoc, List.append_cancel_left_eq] at same
          obtain ⟨equalConditions, same⟩ :=
            condition otherCondition (ended _) (ended _) same
          rw [List.append_cancel_left_eq] at same
          obtain ⟨equalResults, same⟩ := result otherResult (ends_branchSpelling bs rest)
            (ends_branchSpelling cs after) same
          obtain ⟨equals, ends⟩ := ih conditions results otherConditions otherResults same
          refine ⟨fun env => ?_, ends⟩
          cases b
          cases c
          simp only [Expr.sameBranches, equalConditions env, equalResults env, equals env,
            Bool.and_self]

/-- What follows the branches starts like no branch. -/
theorem defaultSpelling_start (otherwise : Option Expr) (rest : List Char) :
    ∃ more, (defaultSpelling d otherwise).toList ++ (" END".toList ++ rest) =
      " E".toList ++ more := by
  cases otherwise with
  | none => exact ⟨_, rfl⟩
  | some e =>
      rw [toList_defaultSpelling_some]
      exact ⟨_, rfl⟩

theorem negate_ne_operand (own : d.OwnQuote) {e f : Expr} {rest after : List Char}
    (negated : e.Operation d.identifierQuote) (first : f.Operation d.identifierQuote) :
    '-' :: ((e.spelling d).toList ++ ')' :: rest) ≠ (f.spelling d).toList ++ ' ' :: after := by
  intro same
  obtain ⟨c, text, written, _⟩ := first.start own
  rw [written] at same
  obtain ⟨rfl, later⟩ := List.cons.inj same
  obtain ⟨n, rfl⟩ := first.int_of_start own written (.inl rfl)
  -- The rest of the number is not empty: what is negated starts with a digit.
  have digits : ∃ c more, text = c :: more ∧ c.isDigit = true := by
    rw [spelling_value own, Dialect.literalText] at written
    cases value : n.toInt with
    | ofNat m =>
        obtain ⟨c, more, start, digit⟩ := toDigits_eq_cons m
        rw [value] at written
        cases (toList_toString_ofNat m).symm.trans written |>.symm.trans start
        cases digit
    | negSucc m =>
        obtain ⟨c, more, start, digit⟩ := toDigits_eq_cons (m + 1)
        rw [value, toList_toString_negSucc] at written
        exact ⟨c, more, (List.cons.inj written).2.symm.trans start, digit⟩
  obtain ⟨c, more, rfl, digit⟩ := digits
  obtain ⟨x, other, otherWritten, _⟩ := negated.start own
  rw [otherWritten] at later
  obtain ⟨rfl, _⟩ := List.cons.inj later
  obtain ⟨m, rfl⟩ := negated.int_of_start own otherWritten (.inr digit)
  rw [← otherWritten] at later
  refine negated_ne_number m.toInt n.toInt rest after ?_
  rw [spelling_value own, Dialect.literalText] at later written
  rw [written]
  exact congrArg ('-' :: ·) later

theorem determined_value {v : Value} (own : d.OwnQuote) (basic : v.isBasic = true) :
    (Expr.value v).Determined d := by
  intro f rest after operation ended otherEnded same
  have kinds := (Operation.value basic).kind_eq own operation same
  cases operation with
  | value otherBasic =>
      have read := congrArg readLiteral same
      simp only [spelling_value own, readLiteral_basic _ _ basic ended,
        readLiteral_basic _ _ otherBasic otherEnded] at read
      cases read
      refine ⟨fun _ => ?_, rfl⟩
      unfold Expr.sameIn
      exact beq_self_eq_true _
  | column => cases kinds
  | binary => cases kinds
  | negate => cases kinds
  | isIn => cases kinds
  | case => cases kinds

theorem determined_column {source : Relation} {name : String} (own : d.OwnQuote)
    (free : d.identifierQuote ∉ name.toList) : (Expr.column ⟨source, name⟩).Determined d := by
  intro f rest after operation ended otherEnded same
  have column : (Expr.column ⟨source, name⟩).Operation d.identifierQuote := .column free
  have kinds := column.kind_eq own operation same
  cases operation with
  | value => cases kinds
  | column otherFree =>
      simp only [spelling, own.names.toList_quote, List.cons_append, List.append_assoc,
        List.nil_append, List.cons.injEq, true_and] at same
      obtain ⟨names, ends⟩ := append_mark_inj free otherFree same
      cases String.toList_inj.mp names
      refine ⟨fun _ => ?_, ends⟩
      unfold Expr.sameIn
      exact beq_self_eq_true _
  | binary => cases kinds
  | negate => cases kinds
  | isIn => cases kinds
  | case => cases kinds

theorem determined_binary {operator : BinaryOperator} {arguments : List Expr} (own : d.OwnQuote)
    (several : 2 ≤ arguments.length)
    (operands : ∀ e ∈ arguments, e.Operation d.identifierQuote)
    (determined : ∀ e ∈ arguments, e.Determined d) :
    (Expr.binary operator arguments).Determined d := by
  intro f rest after operation ended otherEnded same
  have kinds := (Operation.binary several operands).kind_eq own operation same
  obtain ⟨e, next, others, rfl⟩ := exists_cons_cons_of_two_le several
  obtain ⟨first, determined⟩ := List.forall_mem_cons.mp determined
  cases operation with
  | value => cases kinds
  | column => cases kinds
  | @binary otherOperator _ otherSeveral otherOperands =>
      obtain ⟨f, nextF, othersF, rfl⟩ := exists_cons_cons_of_two_le otherSeveral
      obtain ⟨other, otherOperands⟩ := List.forall_mem_cons.mp otherOperands
      rw [append_spelling_binary, append_spelling_binary, tailLetters_operator,
        tailLetters_operator] at same
      obtain ⟨equal, tails⟩ := first other (ends_cons (.inl rfl)) (ends_cons (.inl rfl))
        (List.cons.inj same).2
      obtain ⟨symbols, _⟩ := append_mark_inj operator.blank_not_mem_symbol
        otherOperator.blank_not_mem_symbol (List.cons.inj tails).2
      cases BinaryOperator.symbol_injective (String.toList_inj.mp symbols)
      rw [← tailLetters_operator, ← tailLetters_operator] at tails
      obtain ⟨equals, ends⟩ := tails_determined (.inl rfl) determined otherOperands tails
      refine ⟨fun env => ?_, ends⟩
      unfold Expr.sameIn
      simp only [Expr.sameAll, beq_self_eq_true, equal env, equals env, Bool.and_self]
  | negate negated =>
      rw [append_spelling_binary, append_spelling_negate, tailLetters_operator] at same
      exact absurd (List.cons.inj same).2.symm
        (negate_ne_operand own negated (operands e List.mem_cons_self))
  | isIn operand items =>
      rw [append_spelling_binary, append_spelling_isIn, tailLetters_operator] at same
      obtain ⟨_, tails⟩ := first operand (ends_cons (.inl rfl)) (ends_cons (.inl rfl))
        (List.cons.inj same).2
      exact absurd (List.cons.inj tails).2 (symbol_ne_in operator)
  | case => cases kinds

theorem determined_negate {e : Expr} (own : d.OwnQuote) (negated : e.Operation d.identifierQuote)
    (determined : e.Determined d) : e.negate.Determined d := by
  intro f rest after operation ended otherEnded same
  have kinds := (Operation.negate negated).kind_eq own operation same
  cases operation with
  | value => cases kinds
  | column => cases kinds
  | binary several operands =>
      obtain ⟨f, next, others, rfl⟩ := exists_cons_cons_of_two_le several
      rw [append_spelling_negate, append_spelling_binary, tailLetters_operator] at same
      exact absurd (List.cons.inj same).2
        (negate_ne_operand own negated (operands f List.mem_cons_self))
  | negate other =>
      rw [append_spelling_negate, append_spelling_negate] at same
      obtain ⟨equal, tails⟩ := determined other (ends_cons (.inr (.inr rfl)))
        (ends_cons (.inr (.inr rfl))) (List.cons.inj (List.cons.inj same).2).2
      refine ⟨fun env => ?_, (List.cons.inj tails).2⟩
      unfold Expr.sameIn
      exact equal env
  | isIn operand =>
      rw [append_spelling_negate, append_spelling_isIn] at same
      exact absurd (List.cons.inj same).2 (negate_ne_operand own negated operand)
  | case => cases kinds

theorem determined_isIn {e : Expr} {list : List Expr} (own : d.OwnQuote)
    (operand : e.Operation d.identifierQuote) (items : ∀ e ∈ list, e.Operation d.identifierQuote)
    (determined : e.Determined d) (determinedItems : ∀ e ∈ list, e.Determined d) :
    (e.isIn list).Determined d := by
  intro f rest after operation ended otherEnded same
  have kinds := (Operation.isIn operand items).kind_eq own operation same
  cases operation with
  | value => cases kinds
  | column => cases kinds
  | @binary operator _ several operands =>
      obtain ⟨f, next, others, rfl⟩ := exists_cons_cons_of_two_le several
      rw [append_spelling_isIn, append_spelling_binary, tailLetters_operator] at same
      obtain ⟨_, tails⟩ := determined (operands f List.mem_cons_self) (ends_cons (.inl rfl))
        (ends_cons (.inl rfl)) (List.cons.inj same).2
      exact absurd (List.cons.inj tails).2.symm (symbol_ne_in operator)
  | negate negated =>
      rw [append_spelling_isIn, append_spelling_negate] at same
      exact absurd (List.cons.inj same).2.symm (negate_ne_operand own negated operand)
  | isIn other otherItems =>
      rw [append_spelling_isIn, append_spelling_isIn] at same
      obtain ⟨equal, tails⟩ := determined other (ends_cons (.inl rfl)) (ends_cons (.inl rfl))
        (List.cons.inj same).2
      rw [List.cons.injEq, List.append_cancel_left_eq, List.cons.injEq, List.cons.injEq] at tails
      obtain ⟨equals, ends⟩ := items_determined own items determinedItems otherItems tails.2.2.2
      refine ⟨fun env => ?_, (List.cons.inj ends).2⟩
      unfold Expr.sameIn
      simp only [equal env, equals env, Bool.and_self]
  | case => cases kinds

def sameDefault (env : Comparison) : Option Expr → Option Expr → Bool
  | none, none => true
  | some e, some f => e.sameIn env f
  | _, _ => false

theorem sameIn_case (env : Comparison) (bs cs : List (BranchOf Expr))
    (otherwise other : Option Expr) :
    (Expr.case ⟨bs, otherwise⟩).sameIn env (.case ⟨cs, other⟩) =
      (Expr.sameBranches env bs cs && sameDefault env otherwise other) := by
  unfold Expr.sameIn
  cases otherwise <;> cases other <;> rfl

theorem default_determined {otherwise other : Option Expr} {rest after : List Char}
    (determined : ∀ e ∈ otherwise, e.Determined d)
    (operations : ∀ f ∈ other, f.Operation d.identifierQuote)
    (same : (defaultSpelling d otherwise).toList ++ (" END".toList ++ rest) =
      (defaultSpelling d other).toList ++ (" END".toList ++ after)) :
    (∀ env, sameDefault env otherwise other = true) ∧ rest = after := by
  have ended (more : List Char) : Ends (" END".toList ++ more) := ends_cons (.inl rfl)
  cases otherwise with
  | none =>
      cases other with
      | none => exact ⟨fun _ => rfl, List.append_cancel_left (List.append_cancel_left same)⟩
      | some f =>
          rw [toList_defaultSpelling_some] at same
          cases same
  | some e =>
      cases other with
      | none =>
          rw [toList_defaultSpelling_some] at same
          cases same
      | some f =>
          rw [toList_defaultSpelling_some, toList_defaultSpelling_some, List.append_assoc,
            List.append_assoc, List.append_cancel_left_eq] at same
          obtain ⟨equal, tails⟩ := determined e rfl (operations f rfl) (ended _) (ended _) same
          exact ⟨equal, List.append_cancel_left tails⟩

theorem determined_case {branches : List (BranchOf Expr)} {otherwise : Option Expr}
    (own : d.OwnQuote) (operation : (Expr.case ⟨branches, otherwise⟩).Operation d.identifierQuote)
    (conditions : ∀ b ∈ branches, b.condition.Determined d)
    (results : ∀ b ∈ branches, b.result.Determined d)
    (default : ∀ e ∈ otherwise, e.Determined d) :
    (Expr.case ⟨branches, otherwise⟩).Determined d := by
  intro f rest after other ended otherEnded same
  have kinds := operation.kind_eq own other same
  cases other with
  | value => cases kinds
  | column => cases kinds
  | binary => cases kinds
  | negate => cases kinds
  | isIn => cases kinds
  | @case cs instead _ otherConditions otherResults otherDefault =>
      rw [toList_spelling_case, toList_spelling_case] at same
      simp only [List.append_assoc, List.append_cancel_left_eq] at same
      obtain ⟨more, start⟩ := defaultSpelling_start (d := d) otherwise rest
      obtain ⟨otherMore, otherStart⟩ := defaultSpelling_start (d := d) instead after
      rw [start, otherStart] at same
      obtain ⟨equals, tails⟩ :=
        branches_determined conditions results otherConditions otherResults same
      rw [tails, ← otherStart] at start
      obtain ⟨equal, ends⟩ := default_determined default otherDefault start
      exact ⟨fun env => by rw [sameIn_case, equals env, equal env, Bool.and_self], ends⟩

theorem Operation.determined (own : d.OwnQuote) {e : Expr}
    (operation : e.Operation d.identifierQuote) : e.Determined d := by
  induction operation with
  | value basic => exact determined_value own basic
  | column free => exact determined_column own free
  | binary several operands ih => exact determined_binary own several operands ih
  | negate operand ih => exact determined_negate own operand ih
  | isIn operand items ih ihItems => exact determined_isIn own operand items ih ihItems
  | case some conditions results default ihConditions ihResults ihDefault =>
      exact determined_case own (.case some conditions results default) ihConditions ihResults
        ihDefault

end Determined

/-! The same operations have the same text. -/

section Same

variable {d : Dialect} {env : Comparison}

theorem spellings_eq_of_sameAll {es fs : List Expr}
    (equal : ∀ e ∈ es, ∀ f, e.sameIn env f = true → e.spelling d = f.spelling d)
    (same : Expr.sameAll env es fs = true) : spellings d es = spellings d fs := by
  induction es generalizing fs with
  | nil =>
      cases fs with
      | nil => rfl
      | cons f fs =>
          unfold Expr.sameAll at same
          cases same
  | cons e es ih =>
      cases fs with
      | nil =>
          unfold Expr.sameAll at same
          cases same
      | cons f fs =>
          obtain ⟨here, later⟩ := List.forall_mem_cons.mp equal
          rw [Expr.sameAll, Bool.and_eq_true] at same
          rw [spellings, spellings, here f same.1, ih later same.2]

theorem branchSpelling_eq_of_sameBranches {bs cs : List (BranchOf Expr)}
    (conditions : ∀ b ∈ bs, ∀ f, b.condition.sameIn env f = true →
      b.condition.spelling d = f.spelling d)
    (results : ∀ b ∈ bs, ∀ f, b.result.sameIn env f = true → b.result.spelling d = f.spelling d)
    (same : Expr.sameBranches env bs cs = true) : branchSpelling d bs = branchSpelling d cs := by
  induction bs generalizing cs with
  | nil =>
      cases cs with
      | nil => rfl
      | cons c cs =>
          unfold Expr.sameBranches at same
          cases same
  | cons b bs ih =>
      cases cs with
      | nil =>
          unfold Expr.sameBranches at same
          cases same
      | cons c cs =>
          cases b
          cases c
          obtain ⟨condition, conditions⟩ := List.forall_mem_cons.mp conditions
          obtain ⟨result, results⟩ := List.forall_mem_cons.mp results
          rw [Expr.sameBranches, Bool.and_eq_true, Bool.and_eq_true] at same
          rw [branchSpelling, branchSpelling, condition _ same.1.1, result _ same.1.2,
            ih conditions results same.2]

theorem Operation.spelling_eq_of_sameIn {mark : Char} {e f : Expr} (operation : e.Operation mark)
    (same : e.sameIn env f = true) : e.spelling d = f.spelling d := by
  induction operation generalizing f with
  | value =>
      unfold Expr.sameIn at same
      cases f with
      | value => rw [eq_of_beq same]
      | _ => cases same
  | column =>
      unfold Expr.sameIn at same
      cases f with
      | column c =>
          cases c
          cases eq_of_beq same
          simp only [spelling]
      | _ => cases same
  | binary several operands ih =>
      unfold Expr.sameIn at same
      cases f with
      | binary =>
          obtain ⟨operators, arguments⟩ := Bool.and_eq_true_iff.mp same
          simp only [spelling, eq_of_beq operators,
            spellings_eq_of_sameAll (fun e listed _ => ih e listed) arguments]
      | _ => cases same
  | negate operand ih =>
      unfold Expr.sameIn at same
      cases f with
      | negate => simp only [spelling, ih same]
      | _ => cases same
  | isIn operand items ih ihItems =>
      unfold Expr.sameIn at same
      cases f with
      | isIn =>
          obtain ⟨operands, lists⟩ := Bool.and_eq_true_iff.mp same
          simp only [spelling, ih operands,
            spellings_eq_of_sameAll (fun e listed _ => ihItems e listed) lists]
      | _ => cases same
  | @case branches otherwise some conditions results default ihConditions ihResults ihDefault =>
      cases f with
      | case c =>
          obtain ⟨cs, other⟩ := c
          rw [sameIn_case, Bool.and_eq_true] at same
          have written := branchSpelling_eq_of_sameBranches
            (fun b listed _ => ihConditions b listed) (fun b listed _ => ihResults b listed) same.1
          cases otherwise with
          | none =>
              cases other with
              | none => simp only [spelling, written]
              | some f => cases same.2
          | some e =>
              cases other with
              | none => cases same.2
              | some f => simp only [spelling, written, ihDefault e rfl same.2]
      | _ =>
          unfold Expr.sameIn at same
          cases same

theorem Operation.spelling_eq_iff (own : d.OwnQuote) {e f : Expr}
    (first : e.Operation d.identifierQuote) (second : f.Operation d.identifierQuote) :
    e.spelling d = f.spelling d ↔ e.sameIn env f = true := by
  constructor
  · intro same
    have text : (e.spelling d).toList ++ [] = (f.spelling d).toList ++ [] := by rw [same]
    exact (first.determined own second ends_nil ends_nil text).1 env
  · exact first.spelling_eq_of_sameIn

end Same

theorem Operation.ne_code {mark : Char} {e : Expr} (operation : e.Operation mark) (sql : String) :
    e ≠ .code sql := by
  rintro rfl
  cases operation

theorem Operation.compile_eq {mark : Char} {e : Expr} (operation : e.Operation mark) (store : Store)
    (settings : Settings) :
    (Node.expr e).compile store settings = .ok ("SELECT " ++ (e.spelling settings.dialect ++
      clause "FROM" "" settings.dialect.placeholderTable.toList)) := by
  have text : e.render (settings.links store (settings.depth store))
      (settings.context.placed true settings.context.inJoin) = pure (e.spelling settings.dialect) :=
    operation.render_eq rfl
  have root : (Node.expr e).renderRoot (settings.links store (settings.depth store))
      settings.context = pure ("SELECT " ++ (e.spelling settings.dialect ++
        clause "FROM" "" settings.dialect.placeholderTable.toList)) := by
    rw [Node.renderRoot_expr _ _ operation.ne_code, text]
    simp [selectText, selectList, clause, Context.enclose, Settings.context, String.append_assoc]
  rw [Node.compile, Node.compileWithin_eq, root]
  rfl

/-- Operations are written with the same text exactly if they are the same up to the relations of
their columns, as parts of a query in which no alias is in scope and as queries of their own. -/
theorem Operation.same_iff_text {d : Dialect} (own : d.OwnQuote) {e f : Expr}
    (first : e.Operation d.identifierQuote) (second : f.Operation d.identifierQuote)
    (env : Comparison) :
    (∀ links (ctx : Context), ctx.dialect = d → ctx.aliases = [] →
      ∃ text other, e.render links ctx = pure text ∧ f.render links ctx = pure other ∧
        (text = other ↔ e.sameIn env f = true)) ∧
    (∀ store (settings : Settings), settings.dialect = d →
      ∃ sql other, (Node.expr e).compile store settings = .ok sql ∧
        (Node.expr f).compile store settings = .ok other ∧
        (sql = other ↔ e.sameIn env f = true)) := by
  have texts : e.spelling d = f.spelling d ↔ e.sameIn env f = true :=
    first.spelling_eq_iff own second
  constructor
  · rintro links ctx rfl unaliased
    exact ⟨_, _, first.render_eq unaliased, second.render_eq unaliased, texts⟩
  · rintro store settings rfl
    refine ⟨_, _, first.compile_eq store settings, second.compile_eq store settings, ?_⟩
    rw [String.append_right_inj, String.append_left_inj]
    exact texts

end Expr

namespace Lookalikes

/-- An operation with the given number first, on a column of some relation. -/
def operation (id : Nat) (number : Expr) : Expr :=
  let x : Expr := .column ⟨.param ⟨⟨id⟩, "orders"⟩, "x"⟩
  .case ⟨[⟨.binary .sub [number, .isIn x [.value (.text "it's, ("), .value .null]], number⟩],
    some (.negate number)⟩

theorem operation_operation (id : Nat) {number : Expr} (operand : number.Operation '"') :
    (operation id number).Operation '"' := by
  have column : (Expr.column ⟨.param ⟨⟨id⟩, "orders"⟩, "x"⟩).Operation '"' :=
    .column (by decide)
  refine .case (by simp) ?_ ?_ ?_
  · simp only [List.mem_singleton, forall_eq]
    refine .binary (Nat.le_refl 2) ?_
    simp only [List.forall_mem_cons, List.not_mem_nil, false_implies, implies_true, and_true]
    refine ⟨operand, .isIn column ?_⟩
    simp only [List.forall_mem_cons, List.not_mem_nil, false_implies, implies_true, and_true]
    exact ⟨.value rfl, .value rfl⟩
  · simpa only [List.mem_singleton, forall_eq] using operand
  · simpa only [Option.mem_some_iff, forall_eq'] using Expr.Operation.negate operand

end Lookalikes

theorem same_iff_text_of_lookalikes :
    Dialect.duckDB.OwnQuote ∧
    (Lookalikes.operation 1 (.value (.int (-5)))).Operation '"' ∧
    (Lookalikes.operation 2 (.negate (.value (.int 5)))).Operation '"' ∧
    ∃ sql other,
      (Node.expr (Lookalikes.operation 1 (.value (.int (-5))))).compile {}
        { dialect := .duckDB } = .ok sql ∧
      (Node.expr (Lookalikes.operation 2 (.negate (.value (.int 5))))).compile {}
        { dialect := .duckDB } = .ok other ∧
      (sql = other ↔ (Lookalikes.operation 1 (.value (.int (-5)))).sameIn (fun _ _ => false)
        (Lookalikes.operation 2 (.negate (.value (.int 5)))) = true) := by
  have own : Dialect.duckDB.OwnQuote := ⟨rfl, rfl, by decide, by decide⟩
  have first := Lookalikes.operation_operation 1 (.value (v := .int (-5)) rfl)
  have second := Lookalikes.operation_operation 2 (.negate (.value (v := .int 5) rfl))
  exact ⟨own, first, second, (Expr.Operation.same_iff_text own first second _).2 {} _ rfl⟩

end SqlQuery
