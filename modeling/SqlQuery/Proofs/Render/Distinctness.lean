import SqlQuery.Proofs.Render.Formula

/-!
Expressions over columns, literals and operators, IS DISTINCT FROM among them. Their text shows
everything but the grouping of its rows and the relations of the columns.
-/

namespace SqlQuery

/-- The dialect writes IS DISTINCT FROM between its operands, and names and literals in the known
forms, and its quote starts names only. -/
structure Dialect.UsualOperators (d : Dialect) : Prop extends d.UsualLiterals where
  distinct : ∀ a b, d.isDistinctFrom a b = a ++ " is distinct from " ++ b
  names : d.QuotesPlainly
  ownMark : Formula.OwnMark d.identifierQuote

namespace Expr

/-- The formula of an expression over columns, literals, negation and binary operators with two
operands or more. The relations of the columns do not show in it. -/
inductive HasFormula (d : Dialect) : Expr → Formula → Prop
  | value (v) : HasFormula d (.value v) (.literal (d.literal v).toList)
  | column (source) {name} (quotable : d.Quotable name) :
      HasFormula d (.column ⟨source, name⟩) (.name name.toList)
  | binary (operator) {first formula} (others : List (Expr × Formula)) (several : others ≠ [])
      (operand : HasFormula d first formula) (operands : ∀ p ∈ others, HasFormula d p.1 p.2) :
      HasFormula d (.binary operator (first :: others.map Prod.fst))
        (.binary operator formula (others.map Prod.snd))
  | negate {e formula} (operand : HasFormula d e formula) :
      HasFormula d (.negate e) (.negate formula)
  | isDistinctFrom {left right first second} (leftFormula : HasFormula d left first)
      (rightFormula : HasFormula d right second) :
      HasFormula d (.isDistinctFrom left right) (.distinct first second)

section Written

variable {d : Dialect} {e : Expr} {formula : Formula}

theorem HasFormula.legible (usual : d.UsualOperators) (has : e.HasFormula d formula) :
    formula.Legible d.identifierQuote false := by
  induction has with
  | value v => exact .literal (usual.form v)
  | column _ quotable => exact .name quotable
  | @binary operator first formula others several operand operands ih ihOthers =>
      refine .binary (by simpa using several) ih ?_
      intro f listed
      obtain ⟨p, present, rfl⟩ := List.mem_map.mp listed
      exact ihOthers p present
  | negate _ ih => exact .negate ih
  | isDistinctFrom _ _ ihLeft ihRight =>
      exact .distinct (fun grouped => Bool.noConfusion grouped) ihLeft ihRight

theorem renderAll_formulas {links : Links} {ctx : Context} {others : List (Expr × Formula)}
    (rendered : ∀ p ∈ others, p.1.render links ctx =
      pure (String.ofList (p.2.text ctx.dialect.identifierQuote))) :
    Expr.renderAll links ctx (others.map Prod.fst) =
      pure (others.map fun p => String.ofList (p.2.text ctx.dialect.identifierQuote)) := by
  induction others with
  | nil => rfl
  | cons p rest ih =>
      obtain ⟨here, later⟩ := List.forall_mem_cons.mp rendered
      simp only [List.map_cons, Expr.renderAll, here, ih later, pure_bind]

theorem toList_intercalate_formulas (mark : Char) (operator : BinaryOperator) (first : String)
    (others : List (Expr × Formula)) :
    ((" " ++ operator.symbol ++ " ").intercalate
      (first :: others.map fun p => String.ofList (p.2.text mark))).toList =
      first.toList ++ Formula.tailText mark operator (others.map Prod.snd) := by
  have letters : (" " ++ operator.symbol ++ " ").toList = operatorLetters operator := by
    rw [String.toList_append, String.toList_append]
    rfl
  rw [String.toList_intercalate, letters, List.map_cons, List.intercalate_cons_eq_append_flatMap]
  congr 1
  induction others with
  | nil => rfl
  | cons p rest ih =>
      rw [List.map_cons, List.map_cons, List.flatMap_cons, ih, String.toList_ofList, List.map_cons,
        Formula.tailText, List.append_assoc]

theorem HasFormula.render_eq {links : Links} {ctx : Context}
    (usual : ctx.dialect.UsualOperators) (has : e.HasFormula ctx.dialect formula)
    (unaliased : ctx.aliases = []) :
    e.render links ctx = pure (String.ofList (formula.text ctx.dialect.identifierQuote)) := by
  induction has with
  | value v => simp only [Expr.render, Formula.text, String.ofList_toList]
  | @column source name =>
      have text : ctx.dialect.quote name =
          String.ofList (Formula.text ctx.dialect.identifierQuote (.name name.toList)) := by
        rw [← String.toList_inj, usual.names.toList_quote, String.toList_ofList, Formula.text]
      rw [← text]
      simp only [Expr.render, Context.column, unaliased]
      rfl
  | @binary operator first formula others several operand operands ih ihOthers =>
      simp only [Expr.render, Expr.renderAll, ih, renderAll_formulas ihOthers, pure_bind]
      congr 1
      rw [← String.toList_inj]
      simp only [Formula.text, String.toList_append, toList_intercalate_formulas,
        String.toList_ofList, List.append_assoc]
      rfl
  | negate operand ih =>
      simp only [Expr.render, ih, pure_bind]
      congr 1
      rw [← String.toList_inj]
      simp only [Formula.text, String.toList_append, String.toList_ofList, List.append_assoc]
      rfl
  | isDistinctFrom _ _ ihLeft ihRight =>
      simp only [Expr.render, ihLeft, ihRight, pure_bind, usual.distinct]
      congr 1
      rw [← String.toList_inj]
      simp only [Formula.text, String.toList_append, String.toList_ofList, List.append_assoc]
      rfl

theorem HasFormula.ne_code (has : e.HasFormula d formula) (sql : String) : e ≠ .code sql := by
  rintro rfl
  cases has

theorem HasFormula.compile_eq {settings : Settings} (usual : settings.dialect.UsualOperators)
    (has : e.HasFormula settings.dialect formula) (store : Store) :
    (Node.expr e).compile store settings = .ok ("SELECT " ++
      (String.ofList (formula.text settings.dialect.identifierQuote) ++
        clause "FROM" "" settings.dialect.placeholderTable.toList)) := by
  have text : e.render (settings.links store (settings.depth store))
      (settings.context.placed true settings.context.inJoin) =
        pure (String.ofList (formula.text settings.dialect.identifierQuote)) :=
    has.render_eq usual rfl
  have root : (Node.expr e).renderRoot (settings.links store (settings.depth store))
      settings.context = pure ("SELECT " ++
        (String.ofList (formula.text settings.dialect.identifierQuote) ++
          clause "FROM" "" settings.dialect.placeholderTable.toList)) := by
    rw [Node.renderRoot_expr _ _ has.ne_code, text]
    simp [selectText, selectList, clause, Context.enclose, Settings.context, String.append_assoc]
  rw [Node.compile, Node.compileWithin_eq, root]
  rfl

end Written

section Regrouped

variable {d : Dialect}

/-- Another expression has the same formula up to the grouping of its rows. -/
def Regroups (d : Dialect) (formula : Formula) : Prop :=
  ∃ other another, HasFormula d other another ∧ another ≠ formula ∧
    another.regrouped = formula.regrouped

theorem regroups_binary {operator : BinaryOperator} {first : Expr} {formula : Formula}
    {others : List (Expr × Formula)} (several : others ≠ [])
    (operand : first.HasFormula d formula) (operands : ∀ p ∈ others, p.1.HasFormula d p.2)
    {p : Expr × Formula} (listed : p ∈ others) (regroups : Regroups d p.2) :
    Regroups d (.binary operator formula (others.map Prod.snd)) := by
  obtain ⟨other, another, has, changed, same⟩ := regroups
  obtain ⟨before, after, rfl⟩ := List.append_of_mem listed
  refine ⟨_, _, .binary operator (before ++ (other, another) :: after) (by simp) operand ?_,
    ?_, ?_⟩
  · intro q present
    rcases List.mem_append.mp present with present | present
    · exact operands q (List.mem_append_left _ present)
    · rcases List.mem_cons.mp present with rfl | present
      · exact has
      · exact operands q (List.mem_append_right _ (List.mem_cons_of_mem _ present))
  · simpa using changed
  · simp [Formula.regrouped, Formula.regroupedAll_eq_map, same]

theorem HasFormula.operands_of_isDistinct {e : Expr} {formula : Formula}
    (has : e.HasFormula d formula) (row : formula.isDistinct = true) :
    ∃ left right first second, HasFormula d left first ∧ HasFormula d right second ∧
      formula = .distinct first second := by
  cases has with
  | isDistinctFrom leftFormula rightFormula => exact ⟨_, _, _, _, leftFormula, rightFormula, rfl⟩
  | value => cases row
  | column => cases row
  | binary => cases row
  | negate => cases row

theorem regroups_distinct {left right : Expr} {first second : Formula}
    (leftFormula : left.HasFormula d first) (rightFormula : right.HasFormula d second)
    (regroupsLeft : first.isFlat = false → Regroups d first)
    (regroupsRight : second.isFlat = false → Regroups d second)
    (rows : (Formula.distinct first second).isFlat = false) :
    Regroups d (.distinct first second) := by
  cases flatLeft : first.isFlat with
  | false =>
      obtain ⟨other, another, has, changed, same⟩ := regroupsLeft flatLeft
      refine ⟨_, _, .isDistinctFrom has rightFormula, ?_, ?_⟩
      · simpa using changed
      · rw [Formula.regrouped, same, Formula.regrouped]
  | true =>
      cases flatRight : second.isFlat with
      | false =>
          obtain ⟨other, another, has, changed, same⟩ := regroupsRight flatRight
          refine ⟨_, _, .isDistinctFrom leftFormula has, ?_, ?_⟩
          · simpa using changed
          · rw [Formula.regrouped, same, Formula.regrouped]
      | true =>
          -- One of the two is a row itself, and its nearest operand can go to the other side.
          cases row : first.isDistinct with
          | true =>
              obtain ⟨_, _, _, _, outer, inner, rfl⟩ := leftFormula.operands_of_isDistinct row
              exact ⟨_, _, .isDistinctFrom outer (.isDistinctFrom inner rightFormula),
                (Formula.rotated_ne _ _ _).symm, (Formula.regrouped_rotated _ _ _).symm⟩
          | false =>
              have row : second.isDistinct = true := by
                simpa [Formula.isFlat, row, flatLeft, flatRight] using rows
              obtain ⟨_, _, _, _, inner, outer, rfl⟩ := rightFormula.operands_of_isDistinct row
              exact ⟨_, _, .isDistinctFrom (.isDistinctFrom leftFormula inner) outer,
                Formula.rotated_ne _ _ _, Formula.regrouped_rotated _ _ _⟩

theorem HasFormula.regroups {e : Expr} {formula : Formula} (has : e.HasFormula d formula)
    (rows : formula.isFlat = false) : Regroups d formula := by
  induction has with
  | value => cases rows
  | column => cases rows
  | @binary operator first formula others several operand operands ih ihOthers =>
      cases flat : formula.isFlat with
      | false =>
          obtain ⟨other, another, has, changed, same⟩ := ih flat
          refine ⟨_, _, .binary operator others several has operands, ?_, ?_⟩
          · simpa using changed
          · rw [Formula.regrouped, same, Formula.regrouped]
      | true =>
          rw [Formula.isFlat, flat, Bool.true_and, ← Bool.not_eq_true, Formula.allFlat_iff] at rows
          simp only [List.mem_map, not_forall] at rows
          obtain ⟨f, ⟨p, listed, rfl⟩, bent⟩ := rows
          exact regroups_binary several operand operands listed
            (ihOthers p listed (Bool.eq_false_iff.mpr bent))
  | negate operand ih =>
      obtain ⟨other, another, has, changed, same⟩ := ih rows
      refine ⟨_, _, .negate has, ?_, ?_⟩
      · simpa using changed
      · rw [Formula.regrouped, same, Formula.regrouped]
  | @isDistinctFrom left right first second leftFormula rightFormula ihLeft ihRight =>
      exact regroups_distinct leftFormula rightFormula ihLeft ihRight rows

end Regrouped

/-- Two expressions are written with the same text exactly if they differ at most in the grouping of
rows, and the text of an expression is its own exactly if its rows have two operands only. -/
theorem HasFormula.same_text_iff_regrouped {d : Dialect} (usual : d.UsualOperators) {e f : Expr}
    {formula other : Formula} (first : e.HasFormula d formula) (second : f.HasFormula d other) :
    (∀ links (ctx : Context), ctx.dialect = d → ctx.aliases = [] →
      ∃ text text', e.render links ctx = pure text ∧ f.render links ctx = pure text' ∧
        (text = text' ↔ formula.regrouped = other.regrouped)) ∧
    ∀ store (settings : Settings), settings.dialect = d →
      (∃ sql sql', (Node.expr e).compile store settings = .ok sql ∧
        (Node.expr f).compile store settings = .ok sql' ∧
        (sql = sql' ↔ formula.regrouped = other.regrouped)) ∧
      (formula.isFlat = true ↔ ∀ (g : Expr) (another : Formula), g.HasFormula d another →
        (Node.expr g).compile store settings = (Node.expr e).compile store settings →
        another = formula) := by
  have texts {f : Expr} {other : Formula} (second : f.HasFormula d other) :
      String.ofList (formula.text d.identifierQuote) =
        String.ofList (other.text d.identifierQuote) ↔ formula.regrouped = other.regrouped := by
    rw [String.ofList_inj]
    exact Formula.text_eq_iff usual.ownMark (first.legible usual) (second.legible usual)
  constructor
  · rintro links ctx rfl unaliased
    exact ⟨_, _, first.render_eq usual unaliased, second.render_eq usual unaliased, texts second⟩
  · rintro store settings rfl
    have compiled {f : Expr} {other : Formula} (second : f.HasFormula settings.dialect other) :
        (Node.expr f).compile store settings = (Node.expr e).compile store settings ↔
          formula.regrouped = other.regrouped := by
      rw [second.compile_eq usual, first.compile_eq usual, Except.ok.injEq, String.append_right_inj,
        String.append_left_inj, eq_comm, texts second]
    refine ⟨⟨_, _, first.compile_eq usual store, second.compile_eq usual store, ?_⟩, ?_, ?_⟩
    · rw [String.append_right_inj, String.append_left_inj, texts second]
    · intro flat g another has same
      exact Formula.eq_of_regrouped_eq flat ((compiled has).mp same)
    · intro alone
      by_contra rows
      obtain ⟨g, another, has, changed, same⟩ := first.regroups (Bool.eq_false_iff.mpr rows)
      exact changed (alone g another has ((compiled has).mpr same.symm))

end Expr

theorem Dialect.usualOperators_duckDB : Dialect.duckDB.UsualOperators where
  literal := rfl
  timestamps _ := rfl
  bytes := .inr rfl
  distinct _ _ := rfl
  names := rfl
  ownMark := Formula.ownMark_quote

/-- What has no default does not show in the text of an operator. -/
theorem Dialect.usualOperators_default (name : String) (toText md5AsInt : String → String)
    (setTimezoneToUtc : String) (normalizeTimestamp : String → Temporal → String)
    (normalizeNumber : String → UInt32 → String) :
    Dialect.UsualOperators
      { name, toText, md5AsInt, setTimezoneToUtc, normalizeTimestamp, normalizeNumber } where
  literal := rfl
  timestamps _ := rfl
  bytes := .inl rfl
  distinct _ _ := rfl
  names := rfl
  ownMark := Formula.ownMark_quote

namespace Rows

def column (name : String) : Expr :=
  .column ⟨.param ⟨⟨1⟩, "orders"⟩, name⟩

/-- Three columns in a row that is grouped from the left. -/
def fromLeft : Expr :=
  .isDistinctFrom (.isDistinctFrom (column "a") (column "b")) (column "c")

/-- The same columns in a row that is grouped from the right. -/
def fromRight : Expr :=
  .isDistinctFrom (column "a") (.isDistinctFrom (column "b") (column "c"))

/-- A row between two numbers below zero, one of them negated. -/
def between (row : Expr) : Expr :=
  .binary .sub [.value (.int (-5)), row, .negate (.value (.float ⟨0xBFF8000000000000⟩))]

theorem column_hasFormula (name : String) (quotable : Dialect.duckDB.Quotable name) :
    (column name).HasFormula .duckDB (.name name.toList) :=
  .column _ quotable

theorem exists_hasFormula :
    ∃ a b c : Formula, fromLeft.HasFormula .duckDB (.distinct (.distinct a b) c) ∧
      fromRight.HasFormula .duckDB (.distinct a (.distinct b c)) := by
  have a := column_hasFormula "a" (by unfold Dialect.Quotable; decide)
  have b := column_hasFormula "b" (by unfold Dialect.Quotable; decide)
  have c := column_hasFormula "c" (by unfold Dialect.Quotable; decide)
  exact ⟨_, _, _, .isDistinctFrom (.isDistinctFrom a b) c, .isDistinctFrom a (.isDistinctFrom b c)⟩

theorem between_hasFormula {row : Expr} {formula : Formula}
    (has : row.HasFormula .duckDB formula) :
    ∃ first last, (between row).HasFormula .duckDB (.binary .sub first [formula, last]) := by
  have last : (Expr.negate (.value (.float ⟨0xBFF8000000000000⟩))).HasFormula .duckDB _ :=
    .negate (.value _)
  exact ⟨_, _, .binary .sub [(row, formula), (_, _)] (List.cons_ne_nil _ _) (.value _)
    (List.forall_mem_cons.mpr ⟨has, List.forall_mem_singleton.mpr last⟩)⟩

end Rows

theorem same_text_iff_of_rows :
    Dialect.duckDB.UsualOperators ∧
    ∃ formula other, (Rows.between Rows.fromLeft).HasFormula .duckDB formula ∧
      Rows.fromRight.HasFormula .duckDB other ∧
      (∃ sql sql',
        (Node.expr (Rows.between Rows.fromLeft)).compile {} { dialect := .duckDB } = .ok sql ∧
        (Node.expr Rows.fromRight).compile {} { dialect := .duckDB } = .ok sql' ∧
        (sql = sql' ↔ formula.regrouped = other.regrouped)) ∧
      (formula.isFlat = true ↔ ∀ (g : Expr) (another : Formula), g.HasFormula .duckDB another →
        (Node.expr g).compile {} { dialect := .duckDB } =
          (Node.expr (Rows.between Rows.fromLeft)).compile {} { dialect := .duckDB } →
        another = formula) := by
  obtain ⟨_, _, _, left, right⟩ := Rows.exists_hasFormula
  obtain ⟨_, _, first⟩ := Rows.between_hasFormula left
  exact ⟨Dialect.usualOperators_duckDB, _, _, first, right,
    (Expr.HasFormula.same_text_iff_regrouped Dialect.usualOperators_duckDB first right).2 {} _ rfl⟩

/-- Two trees that differ have one text. -/
theorem distinct_rows_alike :
    ∃ left right, Rows.fromLeft.HasFormula .duckDB left ∧ Rows.fromRight.HasFormula .duckDB right ∧
      left ≠ right ∧
      (Node.expr Rows.fromLeft).compile {} { dialect := .duckDB } =
        .ok "SELECT \"a\" is distinct from \"b\" is distinct from \"c\"" ∧
      (Node.expr Rows.fromRight).compile {} { dialect := .duckDB } =
        .ok "SELECT \"a\" is distinct from \"b\" is distinct from \"c\"" := by
  obtain ⟨_, _, _, left, right⟩ := Rows.exists_hasFormula
  exact ⟨_, _, left, right, Formula.rotated_ne _ _ _, by rfl, by rfl⟩

end SqlQuery
