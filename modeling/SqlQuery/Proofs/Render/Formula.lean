import SqlQuery.Proofs.Dialect.LiteralForms
import SqlQuery.Proofs.Render.Operators

/-!
Formulas of operators over names and literals as they are written. IS DISTINCT FROM alone has no
parentheses around it, so that several of them in a row have one text however they are grouped;
nothing else is lost in the text.
-/

namespace SqlQuery

open Text

/-- Operators over names and literals as they are written. -/
inductive Formula where
  | name (text : List Char)
  | literal (text : List Char)
  | binary (operator : BinaryOperator) (first : Formula) (others : List Formula)
  | negate (operand : Formula)
  | distinct (left right : Formula)

namespace Formula

theorem induction {motive : Formula → Prop} (name : ∀ text, motive (.name text))
    (literal : ∀ text, motive (.literal text))
    (binary : ∀ operator first others, motive first → (∀ f ∈ others, motive f) →
      motive (.binary operator first others))
    (negate : ∀ operand, motive operand → motive (.negate operand))
    (distinct : ∀ left right, motive left → motive right → motive (.distinct left right))
    (f : Formula) : motive f :=
  @Formula.rec motive (fun fs => ∀ f ∈ fs, motive f) name literal binary negate distinct
    (List.forall_mem_nil _) (fun _ _ first others => List.forall_mem_cons.mpr ⟨first, others⟩) f

def distinctLetters : List Char :=
  " is distinct from ".toList

mutual

def text (mark : Char) : Formula → List Char
  | name text => mark :: (text ++ [mark])
  | literal text => text
  | binary operator first others =>
      '(' :: (first.text mark ++ (tailText mark operator others ++ [')']))
  | negate operand => '(' :: '-' :: (operand.text mark ++ [')'])
  | distinct left right => left.text mark ++ (distinctLetters ++ right.text mark)

/-- The operands after the first, each with the operator before it. -/
def tailText (mark : Char) (operator : BinaryOperator) : List Formula → List Char
  | [] => []
  | f :: rest => Expr.operatorLetters operator ++ (f.text mark ++ tailText mark operator rest)

end

/-! Grouping. -/

def isDistinct : Formula → Bool
  | distinct _ _ => true
  | _ => false

/-- A comparison with one more operand at the end of a row of them. -/
def attach : Formula → Formula → Formula
  | distinct first rest, last => distinct first (rest.attach last)
  | f, last => distinct f last

mutual

/-- The same operands in rows that are grouped from the right. -/
def regrouped : Formula → Formula
  | binary operator first others => binary operator first.regrouped (regroupedAll others)
  | negate operand => negate operand.regrouped
  | distinct left right => left.regrouped.attach right.regrouped
  | name text => name text
  | literal text => literal text

def regroupedAll : List Formula → List Formula
  | [] => []
  | f :: rest => f.regrouped :: regroupedAll rest

end

mutual

/-- Whether all rows are of two operands. -/
def isFlat : Formula → Bool
  | binary _ first others => first.isFlat && allFlat others
  | negate operand => operand.isFlat
  | distinct left right =>
      !left.isDistinct && !right.isDistinct && left.isFlat && right.isFlat
  | name _ => true
  | literal _ => true

def allFlat : List Formula → Bool
  | [] => true
  | f :: rest => f.isFlat && allFlat rest

end

theorem regroupedAll_eq_map (fs : List Formula) : regroupedAll fs = fs.map regrouped := by
  induction fs with
  | nil => rfl
  | cons f rest ih => rw [regroupedAll, ih, List.map_cons]

theorem allFlat_iff {fs : List Formula} : allFlat fs = true ↔ ∀ f ∈ fs, f.isFlat = true := by
  induction fs with
  | nil => simp [allFlat]
  | cons f rest ih => rw [allFlat, Bool.and_eq_true, ih, List.forall_mem_cons]

theorem attach_of_not_isDistinct {left : Formula} (right : Formula)
    (single : left.isDistinct = false) : left.attach right = distinct left right := by
  cases left with
  | distinct => cases single
  | name => rfl
  | literal => rfl
  | binary => rfl
  | negate => rfl

theorem isDistinct_attach (left right : Formula) : (left.attach right).isDistinct = true := by
  cases left <;> rfl

section Text

variable {mark : Char}

theorem text_attach (left right : Formula) :
    (left.attach right).text mark = left.text mark ++ (distinctLetters ++ right.text mark) := by
  induction left using induction with
  | name => rfl
  | literal => rfl
  | binary => rfl
  | negate => rfl
  | distinct first rest _ ih =>
      rw [attach, text, ih, text, List.append_assoc, List.append_assoc]

theorem tailText_congr {operator : BinaryOperator} {fs : List Formula}
    {change : Formula → Formula} (same : ∀ f ∈ fs, (change f).text mark = f.text mark) :
    tailText mark operator (fs.map change) = tailText mark operator fs := by
  induction fs with
  | nil => rfl
  | cons f rest ih =>
      obtain ⟨here, later⟩ := List.forall_mem_cons.mp same
      rw [List.map_cons, tailText, here, ih later, tailText]

/-- The text does not show how rows are grouped. -/
theorem text_regrouped (f : Formula) : f.regrouped.text mark = f.text mark := by
  induction f using induction with
  | name => rfl
  | literal => rfl
  | binary operator first others ih ihOthers =>
      rw [regrouped, regroupedAll_eq_map, text, ih, tailText_congr ihOthers, text]
  | negate operand ih => rw [regrouped, text, ih, text]
  | distinct left right ihLeft ihRight => rw [regrouped, text_attach, ihLeft, ihRight, text]

end Text

/-! Rows of two operands can be grouped in one way only. -/

theorem map_regrouped {fs : List Formula} (same : ∀ f ∈ fs, f.regrouped = f) :
    fs.map regrouped = fs :=
  (List.map_congr_left same).trans (List.map_id fs)

theorem regrouped_of_isFlat {f : Formula} (flat : f.isFlat = true) : f.regrouped = f := by
  induction f using induction with
  | name => rfl
  | literal => rfl
  | binary operator first others ih ihOthers =>
      obtain ⟨flatFirst, flatOthers⟩ := Bool.and_eq_true_iff.mp flat
      have same : ∀ f ∈ others, f.regrouped = f := by
        intro f listed
        exact ihOthers f listed (allFlat_iff.mp flatOthers f listed)
      rw [regrouped, regroupedAll_eq_map, ih flatFirst, map_regrouped same]
  | negate operand ih => rw [regrouped, ih flat]
  | distinct left right ihLeft ihRight =>
      simp only [isFlat, Bool.and_eq_true, Bool.not_eq_true'] at flat
      obtain ⟨⟨⟨single, _⟩, flatLeft⟩, flatRight⟩ := flat
      rw [regrouped, ihLeft flatLeft, ihRight flatRight, attach_of_not_isDistinct _ single]

theorem regrouped_of_isFlat_regrouped {f : Formula} (flat : f.regrouped.isFlat = true) :
    f.regrouped = f := by
  induction f using induction with
  | name => rfl
  | literal => rfl
  | binary operator first others ih ihOthers =>
      rw [regrouped, regroupedAll_eq_map] at flat ⊢
      obtain ⟨flatFirst, flatOthers⟩ := Bool.and_eq_true_iff.mp flat
      have same : ∀ f ∈ others, f.regrouped = f := by
        intro f listed
        exact ihOthers f listed (allFlat_iff.mp flatOthers _ (List.mem_map_of_mem listed))
      rw [ih flatFirst, map_regrouped same]
  | negate operand ih => rw [regrouped, ih flat]
  | distinct left right ihLeft ihRight =>
      rw [regrouped] at flat ⊢
      cases single : left.regrouped.isDistinct with
      | true =>
          -- A third operand would stand in the same row.
          cases regroupedLeft : left.regrouped with
          | distinct first rest =>
              rw [regroupedLeft, attach, isFlat, isDistinct_attach] at flat
              simp at flat
          | _ =>
              rw [regroupedLeft] at single
              cases single
      | false =>
          rw [attach_of_not_isDistinct _ single] at flat ⊢
          simp only [isFlat, Bool.and_eq_true] at flat
          rw [ihLeft flat.1.2, ihRight flat.2]

theorem eq_of_regrouped_eq {f g : Formula} (flat : f.isFlat = true)
    (same : f.regrouped = g.regrouped) : g = f := by
  rw [regrouped_of_isFlat flat] at same
  have other : g.regrouped = g := regrouped_of_isFlat_regrouped (same ▸ flat)
  rw [← other, same]

/-- Formulas whose names do not have the mark in them and whose literals are in one of the known
forms. In a `grouped` one all rows are grouped from the right. -/
inductive Legible (mark : Char) (grouped : Bool) : Formula → Prop
  | name {text} (free : mark ∉ text) : Legible mark grouped (.name text)
  | literal {signed text} (form : LiteralForm signed text) : Legible mark grouped (.literal text)
  | binary {operator first others} (several : others ≠ []) (operand : Legible mark grouped first)
      (operands : ∀ f ∈ others, Legible mark grouped f) :
      Legible mark grouped (.binary operator first others)
  | negate {operand} (legible : Legible mark grouped operand) :
      Legible mark grouped (.negate operand)
  | distinct {left right} (single : grouped = true → left.isDistinct = false)
      (legibleLeft : Legible mark grouped left) (legibleRight : Legible mark grouped right) :
      Legible mark grouped (.distinct left right)

theorem Legible.attach {mark : Char} {left right : Formula} (legible : left.Legible mark true)
    (other : right.Legible mark true) : (left.attach right).Legible mark true := by
  induction legible with
  | name free => exact .distinct (fun _ => rfl) (.name free) other
  | literal form => exact .distinct (fun _ => rfl) (.literal form) other
  | binary several operand operands =>
      exact .distinct (fun _ => rfl) (.binary several operand operands) other
  | negate legible => exact .distinct (fun _ => rfl) (.negate legible) other
  | distinct single legibleLeft _ _ ih => exact .distinct single legibleLeft ih

theorem Legible.regrouped {mark : Char} {grouped : Bool} {f : Formula}
    (legible : f.Legible mark grouped) : f.regrouped.Legible mark true := by
  induction legible with
  | name free => exact .name free
  | literal form => exact .literal form
  | @binary operator first others several operand operands ih ihOthers =>
      rw [Formula.regrouped, regroupedAll_eq_map]
      refine .binary (by simpa using several) ih ?_
      intro f listed
      obtain ⟨g, present, rfl⟩ := List.mem_map.mp listed
      exact ihOthers g present
  | negate legible ih => exact .negate ih
  | distinct single legibleLeft legibleRight ihLeft ihRight => exact ihLeft.attach ihRight

/-! What follows an operand. -/

/-- What may follow a row of operands: not another of them. -/
def Stops (rest : List Char) : Prop :=
  Ends rest ∧ ∀ more, rest ≠ distinctLetters ++ more

theorem ends_distinctLetters (rest : List Char) : Ends (distinctLetters ++ rest) :=
  ends_cons (.inl rfl)

theorem stops_nil : Stops [] :=
  ⟨ends_nil, fun _ same => List.cons_ne_nil _ _ same.symm⟩

theorem stops_close (rest : List Char) : Stops (')' :: rest) := by
  refine ⟨ends_cons (.inr (.inr rfl)), ?_⟩
  intro more same
  exact absurd (List.cons.inj same).1 (by decide)

theorem operatorLetters_append (operator : BinaryOperator) (rest : List Char) :
    Expr.operatorLetters operator ++ rest = ' ' :: (operator.symbol.toList ++ ' ' :: rest) := by
  rw [Expr.operatorLetters, List.cons_append, List.append_assoc]
  rfl

theorem stops_operator (operator : BinaryOperator) (rest : List Char) :
    Stops (Expr.operatorLetters operator ++ rest) := by
  rw [operatorLetters_append]
  refine ⟨ends_cons (.inl rfl), ?_⟩
  intro more same
  have letters : distinctLetters ++ more = ' ' :: ("is".toList ++ ' ' ::
      ("distinct from ".toList ++ more)) := rfl
  rw [letters] at same
  have symbol := (append_mark_inj operator.blank_not_mem_symbol (by decide)
    (List.cons.inj same).2).1
  cases operator <;> revert symbol <;> decide

theorem stops_tailText (mark : Char) (operator : BinaryOperator) (fs : List Formula)
    (rest : List Char) : Stops (tailText mark operator fs ++ ')' :: rest) := by
  cases fs with
  | nil => exact stops_close rest
  | cons f fs =>
      rw [tailText, List.append_assoc]
      exact stops_operator operator _

/-! What an operand starts with. -/

/-- The mark starts neither a literal nor a group. -/
def OwnMark (mark : Char) : Prop :=
  goesOn mark = false ∧ mark ≠ '\'' ∧ mark ≠ '('

theorem ownMark_quote : OwnMark '"' := by
  unfold OwnMark
  decide

def kind : Formula → Expr.Kind
  | name _ => .name
  | literal _ => .literal
  | _ => .group

/-- The kind of the operands that start with a character. -/
def kindOfStart (mark c : Char) : Expr.Kind :=
  if c = mark then .name else if c = '(' then .group else .literal

theorem literal_start {signed : Bool} {text : List Char} (form : LiteralForm signed text) :
    ∃ c rest, text = c :: rest ∧ (goesOn c = true ∨ c = '\'') := by
  rcases form.isQuotation_or_cut with ⟨before, inner, after, opening, _, rfl⟩ | all
  · rcases opening with rfl | rfl
    · exact ⟨_, _, rfl, .inr rfl⟩
    · exact ⟨_, _, rfl, .inl (by decide)⟩
  · cases text with
    | nil =>
        cases form with
        | word isWord => exact absurd rfl isWord.1
        | quotation isQuotation =>
            obtain ⟨before, inner, after, _, _, same⟩ := isQuotation
            cases before <;> cases same
    | cons c rest => exact ⟨c, rest, rfl, .inl (all c List.mem_cons_self)⟩

section Start

variable {mark : Char} (own : OwnMark mark) {grouped : Bool} {f g : Formula}
  {rest after : List Char}

include own

theorem Legible.start (legible : f.Legible mark grouped) (single : f.isDistinct = false) :
    ∃ c rest, f.text mark = c :: rest ∧ kindOfStart mark c = f.kind := by
  have group : kindOfStart mark '(' = .group := by
    rw [kindOfStart, if_neg own.2.2.symm, if_pos rfl]
  cases legible with
  | name => exact ⟨mark, _, rfl, if_pos rfl⟩
  | literal form =>
      obtain ⟨c, rest, rfl, start⟩ := literal_start form
      refine ⟨c, rest, rfl, ?_⟩
      have other : c ≠ mark := by
        rintro rfl
        rcases start with start | start
        · exact absurd own.1 (by rw [start]; decide)
        · exact own.2.1 start
      have noGroup : c ≠ '(' := by
        rintro rfl
        rcases start with start | start
        · exact absurd start (by decide)
        · exact absurd start (by decide)
      rw [kindOfStart, if_neg other, if_neg noGroup, kind]
  | binary => exact ⟨'(', _, rfl, group⟩
  | negate => exact ⟨'(', _, rfl, group⟩
  | distinct => cases single

theorem Legible.kind_eq (first : f.Legible mark grouped) (second : g.Legible mark grouped)
    (single : f.isDistinct = false) (otherSingle : g.isDistinct = false)
    (same : f.text mark ++ rest = g.text mark ++ after) : f.kind = g.kind := by
  obtain ⟨c, text, written, kind⟩ := first.start own single
  obtain ⟨x, other, otherWritten, otherKind⟩ := second.start own otherSingle
  rw [written, otherWritten] at same
  cases (List.cons.inj same).1
  exact kind.symm.trans otherKind

/-- What starts with a sign is a formula without it as well. -/
theorem Legible.unsigned (legible : f.Legible mark true) (start : f.text mark = '-' :: rest) :
    ∃ g : Formula, g.Legible mark true ∧ g.isDistinct = f.isDistinct ∧ g.text mark = rest := by
  induction legible generalizing rest with
  | name =>
      cases (List.cons.inj start).1
      exact absurd own.1 (by decide)
  | @literal _ text form =>
      change text = _ at start
      subst start
      cases form with
      | word isWord => exact absurd (isWord.2 '-' List.mem_cons_self) (by decide)
      | signed isWord => exact ⟨.literal rest, .literal (.word isWord), rfl, rfl⟩
      | quotation isQuotation =>
          obtain ⟨before, inner, after, opening, _, same⟩ := isQuotation
          rcases opening with rfl | rfl
          · exact absurd (List.cons.inj same).1 (by decide)
          · exact absurd (List.cons.inj same).1 (by decide)
  | binary => exact absurd (List.cons.inj start).1 (by decide)
  | negate => exact absurd (List.cons.inj start).1 (by decide)
  | @distinct left right single legibleLeft legibleRight ih _ =>
      obtain ⟨c, letters, written, _⟩ := legibleLeft.start own (single rfl)
      rw [Formula.text, written] at start
      obtain ⟨rfl, rfl⟩ := List.cons.inj start
      obtain ⟨g, legible, alike, same⟩ := ih written
      refine ⟨.distinct g right, .distinct (fun _ => alike.trans (single rfl)) legible legibleRight,
        rfl, ?_⟩
      rw [Formula.text, same]
      rfl

end Start

/-! The text determines the formula. -/

section Determined

variable {mark : Char} {bound : Nat}

/-- Of two formulas that a text starts with, both end at the same place and are the same, in texts
up to a length. -/
def DeterminedUpTo (mark : Char) (bound : Nat) : Prop :=
  ∀ ⦃f g : Formula⦄ ⦃rest after : List Char⦄, f.Legible mark true → g.Legible mark true →
    Stops rest → Stops after → f.text mark ++ rest = g.text mark ++ after →
    (f.text mark ++ rest).length < bound → f = g ∧ rest = after

theorem tailText_determined (shorter : DeterminedUpTo mark bound) {operator : BinaryOperator}
    {fs gs : List Formula} {rest after : List Char} (legible : ∀ f ∈ fs, f.Legible mark true)
    (others : ∀ g ∈ gs, g.Legible mark true)
    (same : tailText mark operator fs ++ ')' :: rest = tailText mark operator gs ++ ')' :: after)
    (bounded : (tailText mark operator fs ++ ')' :: rest).length ≤ bound) :
    fs = gs ∧ rest = after := by
  induction fs generalizing gs with
  | nil =>
      cases gs with
      | nil => exact ⟨rfl, (List.cons.inj same).2⟩
      | cons g gs => exact absurd (List.cons.inj same).1 (by decide)
  | cons f fs ih =>
      cases gs with
      | nil => exact absurd (List.cons.inj same).1 (by decide)
      | cons g gs =>
          obtain ⟨here, later⟩ := List.forall_mem_cons.mp legible
          obtain ⟨there, otherLater⟩ := List.forall_mem_cons.mp others
          simp only [tailText, List.append_assoc, List.append_cancel_left_eq] at same bounded
          have letters : 0 < (Expr.operatorLetters operator).length := Nat.succ_pos _
          rw [List.length_append] at bounded
          obtain ⟨rfl, tails⟩ := shorter here there (stops_tailText mark operator fs rest)
            (stops_tailText mark operator gs after) same (by omega)
          rw [List.length_append] at bounded
          obtain ⟨rfl, ends⟩ := ih later otherLater tails (by omega)
          exact ⟨rfl, ends⟩

theorem negated_ne_operand (own : OwnMark mark) (shorter : DeterminedUpTo mark bound)
    {f g : Formula} {operator : BinaryOperator} {rest after : List Char}
    (negated : f.Legible mark true) (first : g.Legible mark true)
    (bounded : (f.text mark ++ ')' :: rest).length < bound) :
    '-' :: (f.text mark ++ ')' :: rest) ≠
      g.text mark ++ (Expr.operatorLetters operator ++ after) := by
  intro same
  -- The operand starts with the sign, so that the rest of it ends where the negated formula does.
  cases letters : g.text mark with
  | nil =>
      rw [letters] at same
      exact absurd (List.cons.inj same).1 (by decide)
  | cons c more =>
      rw [letters] at same
      obtain ⟨rfl, later⟩ := List.cons.inj same
      obtain ⟨unsigned, legible, _, written⟩ := first.unsigned own letters
      rw [← written] at later
      have ends := (shorter negated legible (stops_close rest) (stops_operator operator after) later
        bounded).2
      exact absurd (List.cons.inj ends).1 (by decide)

theorem text_binary_append (operator : BinaryOperator) (first : Formula) (others : List Formula)
    (rest : List Char) :
    (binary operator first others).text mark ++ rest =
      '(' :: (first.text mark ++ (tailText mark operator others ++ ')' :: rest)) := by
  rw [text, List.cons_append, List.append_assoc, List.append_assoc]
  rfl

theorem text_negate_append (operand : Formula) (rest : List Char) :
    (negate operand).text mark ++ rest = '(' :: '-' :: (operand.text mark ++ ')' :: rest) := by
  rw [text, List.cons_append, List.cons_append, List.append_assoc]
  rfl

theorem text_distinct_append (left right : Formula) (rest : List Char) :
    (distinct left right).text mark ++ rest =
      left.text mark ++ (distinctLetters ++ (right.text mark ++ rest)) := by
  rw [text, List.append_assoc, List.append_assoc]

theorem binary_determined (shorter : DeterminedUpTo mark bound) {operator other : BinaryOperator}
    {f g : Formula} {fs gs : List Formula} {rest after : List Char}
    (several : fs ≠ []) (otherSeveral : gs ≠ []) (first : f.Legible mark true)
    (operands : ∀ f ∈ fs, f.Legible mark true) (otherFirst : g.Legible mark true)
    (otherOperands : ∀ g ∈ gs, g.Legible mark true)
    (same : (binary operator f fs).text mark ++ rest = (binary other g gs).text mark ++ after)
    (bounded : ((binary operator f fs).text mark ++ rest).length ≤ bound) :
    binary operator f fs = binary other g gs ∧ rest = after := by
  rw [text_binary_append, text_binary_append] at same
  rw [text_binary_append, List.length_cons] at bounded
  obtain ⟨rfl, tails⟩ := shorter first otherFirst (stops_tailText mark operator fs rest)
    (stops_tailText mark other gs after) (List.cons.inj same).2 (by omega)
  -- The operator stands before the second operand.
  have operators : operator = other := by
    cases fs with
    | nil => exact absurd rfl several
    | cons second fs =>
        cases gs with
        | nil => exact absurd rfl otherSeveral
        | cons second' gs =>
            simp only [tailText, operatorLetters_append, List.cons_append, List.append_assoc]
              at tails
            have symbols := (append_mark_inj operator.blank_not_mem_symbol
              other.blank_not_mem_symbol (List.cons.inj tails).2).1
            exact BinaryOperator.symbol_injective (String.toList_inj.mp symbols)
  subst operators
  rw [List.length_append] at bounded
  obtain ⟨rfl, ends⟩ := tailText_determined shorter operands otherOperands tails (by omega)
  exact ⟨rfl, ends⟩

theorem binary_ne_negate (own : OwnMark mark) (shorter : DeterminedUpTo mark bound)
    {operator : BinaryOperator} {f g : Formula} {fs : List Formula} {rest after : List Char}
    (several : fs ≠ []) (first : f.Legible mark true) (negated : g.Legible mark true)
    (bounded : ((negate g).text mark ++ after).length ≤ bound) :
    (binary operator f fs).text mark ++ rest ≠ (negate g).text mark ++ after := by
  intro same
  cases fs with
  | nil => exact several rfl
  | cons second fs =>
      rw [text_negate_append, List.length_cons, List.length_cons] at bounded
      simp only [text_binary_append, text_negate_append, tailText, List.append_assoc,
        List.cons.injEq, true_and] at same
      exact negated_ne_operand own shorter negated first (by omega) same.symm

theorem single_determined (own : OwnMark mark) (shorter : DeterminedUpTo mark bound)
    {f g : Formula} {rest after : List Char} (legible : f.Legible mark true)
    (other : g.Legible mark true) (single : f.isDistinct = false)
    (otherSingle : g.isDistinct = false) (ended : Ends rest) (otherEnded : Ends after)
    (same : f.text mark ++ rest = g.text mark ++ after)
    (bounded : (f.text mark ++ rest).length ≤ bound) : f = g ∧ rest = after := by
  have kinds := legible.kind_eq own other single otherSingle same
  have otherBounded : (g.text mark ++ after).length ≤ bound := same ▸ bounded
  cases legible with
  | @name text free =>
      cases other with
      | @name text' free' =>
          simp only [Formula.text, List.cons_append, List.append_assoc, List.nil_append,
            List.cons.injEq, true_and] at same
          obtain ⟨rfl, ends⟩ := append_mark_inj free free' same
          exact ⟨rfl, ends⟩
      | literal => cases kinds
      | binary => cases kinds
      | negate => cases kinds
      | distinct => cases otherSingle
  | literal form =>
      cases other with
      | name => cases kinds
      | literal form' =>
          obtain ⟨rfl, ends⟩ := form.determined form' ended otherEnded same
          exact ⟨rfl, ends⟩
      | binary => cases kinds
      | negate => cases kinds
      | distinct => cases otherSingle
  | binary several first operands =>
      cases other with
      | name => cases kinds
      | literal => cases kinds
      | binary otherSeveral otherFirst otherOperands =>
          exact binary_determined shorter several otherSeveral first operands otherFirst
            otherOperands same bounded
      | negate negated =>
          exact absurd same (binary_ne_negate own shorter several first negated otherBounded)
      | distinct => cases otherSingle
  | negate negated =>
      cases other with
      | name => cases kinds
      | literal => cases kinds
      | binary several first operands =>
          exact absurd same.symm (binary_ne_negate own shorter several first negated bounded)
      | negate otherNegated =>
          rw [text_negate_append, text_negate_append] at same
          rw [text_negate_append, List.length_cons, List.length_cons] at bounded
          obtain ⟨rfl, ends⟩ := shorter negated otherNegated (stops_close rest) (stops_close after)
            (List.cons.inj (List.cons.inj same).2).2 (by omega)
          exact ⟨rfl, (List.cons.inj ends).2⟩
      | distinct => cases otherSingle
  | distinct => cases single

theorem single_ne_distinct (own : OwnMark mark) (shorter : DeterminedUpTo mark bound)
    {f left right : Formula} {rest after : List Char} (legible : f.Legible mark true)
    (other : (distinct left right).Legible mark true) (single : f.isDistinct = false)
    (stopped : Stops rest) (bounded : (f.text mark ++ rest).length ≤ bound) :
    f.text mark ++ rest ≠ (distinct left right).text mark ++ after := by
  intro same
  cases other with
  | distinct otherSingle legibleLeft legibleRight =>
      rw [text_distinct_append] at same
      obtain ⟨_, follows⟩ := single_determined own shorter legible legibleLeft single
        (otherSingle rfl) stopped.1 (ends_distinctLetters _) same bounded
      exact stopped.2 _ follows

theorem determinedUpTo_succ (own : OwnMark mark) (shorter : DeterminedUpTo mark bound) :
    DeterminedUpTo mark (bound + 1) := by
  intro f g rest after legible other stopped otherStopped same bounded
  have within : (f.text mark ++ rest).length ≤ bound := Nat.le_of_lt_succ bounded
  have otherWithin : (g.text mark ++ after).length ≤ bound := same ▸ within
  cases single : f.isDistinct with
  | false =>
      cases otherSingle : g.isDistinct with
      | false =>
          exact single_determined own shorter legible other single otherSingle stopped.1
            otherStopped.1 same within
      | true =>
          cases g with
          | distinct left right =>
              exact absurd same (single_ne_distinct own shorter legible other single stopped within)
          | _ => cases otherSingle
  | true =>
      cases f with
      | distinct left right =>
          cases otherSingle : g.isDistinct with
          | false =>
              exact absurd same.symm
                (single_ne_distinct own shorter other legible otherSingle otherStopped otherWithin)
          | true =>
              cases g with
              | distinct left' right' =>
                  cases legible with
                  | distinct alone legibleLeft legibleRight =>
                  cases other with
                  | distinct alone' legibleLeft' legibleRight' =>
                  rw [text_distinct_append, text_distinct_append] at same
                  rw [text_distinct_append] at within
                  obtain ⟨rfl, tails⟩ := single_determined own shorter legibleLeft legibleLeft'
                    (alone rfl) (alone' rfl) (ends_distinctLetters _) (ends_distinctLetters _) same
                    within
                  rw [List.length_append, List.length_append] at within
                  have letters : 0 < distinctLetters.length := by decide
                  obtain ⟨rfl, ends⟩ := shorter legibleRight legibleRight' stopped otherStopped
                    (List.append_cancel_left tails) (by omega)
                  exact ⟨rfl, ends⟩
              | _ => cases otherSingle
      | _ => cases single

theorem determinedUpTo (own : OwnMark mark) (bound : Nat) : DeterminedUpTo mark bound := by
  induction bound with
  | zero =>
      intro f g rest after _ _ _ _ _ bounded
      cases bounded
  | succ bound ih => exact determinedUpTo_succ own ih

/-- Only the grouping of rows does not show in the text. -/
theorem text_eq_iff (own : OwnMark mark) {grouped grouped' : Bool} {f g : Formula}
    (legible : f.Legible mark grouped) (other : g.Legible mark grouped') :
    f.text mark = g.text mark ↔ f.regrouped = g.regrouped := by
  constructor
  · intro same
    rw [← text_regrouped f, ← text_regrouped g] at same
    have whole : f.regrouped.text mark ++ [] = g.regrouped.text mark ++ [] := by rw [same]
    exact (determinedUpTo own _ legible.regrouped other.regrouped stops_nil stops_nil whole
      (Nat.lt_succ_self _)).1
  · intro same
    rw [← text_regrouped f, same, text_regrouped g]

end Determined

/-! A row of three operands or more can be grouped in another way. -/

theorem attach_assoc (first second third : Formula) :
    (first.attach second).attach third = first.attach (second.attach third) := by
  induction first using induction with
  | name => rfl
  | literal => rfl
  | binary => rfl
  | negate => rfl
  | distinct left right _ ih => rw [attach, attach, ih, attach]

theorem regrouped_rotated (first second third : Formula) :
    (distinct (distinct first second) third).regrouped =
      (distinct first (distinct second third)).regrouped := by
  simp only [regrouped, attach_assoc]

theorem rotated_ne (first second third : Formula) :
    distinct (distinct first second) third ≠ distinct first (distinct second third) := by
  intro same
  have sizes := congrArg sizeOf (distinct.inj same).1
  simp only [distinct.sizeOf_spec] at sizes
  omega

end Formula

end SqlQuery
