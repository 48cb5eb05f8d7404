import Mathlib.Data.List.Forall2
import SqlQuery.Proofs.Dialect.Identifier
import SqlQuery.Proofs.Render.JoinScope

/-!
Texts that grow. An alias before a column makes its text longer, and so the text of a query gets
longer by at least a character for each column that the aliases around the query disturb. No text
can make up for it: the rest of the query is written as before. In a FROM clause a text is not
shorter than elsewhere either; there, names are generated for queries, and the later ones have
longer numbers.
-/

namespace SqlQuery

/-- The first text is longer than the second by at least a number of characters. -/
def Grown (k : Nat) (long short : String) : Prop :=
  short.length + k ≤ long.length

/-- Texts that are longer one by one, and together by at least a number of characters. -/
inductive GrownAll : Nat → List String → List String → Prop
  | nil : GrownAll 0 [] []
  | cons {j k : Nat} {long short : String} {longs shorts : List String} :
      Grown j long short → GrownAll k longs shorts →
        GrownAll (j + k) (long :: longs) (short :: shorts)

theorem Grown.refl (text : String) : Grown 0 text text :=
  Nat.le_refl _

theorem Grown.append {j k : Nat} {long short long' short' : String}
    (first : Grown j long short) (second : Grown k long' short') :
    Grown (j + k) (long ++ long') (short ++ short') := by
  simp only [Grown, String.length_append] at *
  omega

theorem Grown.after {k : Nat} {long short : String} (before : String)
    (grown : Grown k long short) : Grown k (before ++ long) (before ++ short) := by
  simp only [Grown, String.length_append] at *
  omega

theorem Grown.around {k : Nat} {long short : String} (before after : String)
    (grown : Grown k long short) :
    Grown k (before ++ long ++ after) (before ++ short ++ after) := by
  simp only [Grown, String.length_append] at *
  omega

namespace GrownAll

variable {j k : Nat} {longs shorts longs' shorts' : List String}

theorem refl : (texts : List String) → GrownAll 0 texts texts
  | [] => nil
  | text :: rest => cons (.refl text) (refl rest)

theorem singleton {long short : String} (grown : Grown k long short) :
    GrownAll k [long] [short] :=
  cons grown nil

theorem append (first : GrownAll j longs shorts) (second : GrownAll k longs' shorts') :
    GrownAll (j + k) (longs ++ longs') (shorts ++ shorts') := by
  induction first with
  | nil =>
      rw [Nat.zero_add]
      exact second
  | cons head _ induction =>
      rw [Nat.add_assoc]
      exact cons head induction

theorem map {f : String → String} (keeps : ∀ k long short, Grown k long short →
      Grown k (f long) (f short)) (grown : GrownAll k longs shorts) :
    GrownAll k (longs.map f) (shorts.map f) := by
  induction grown with
  | nil => exact nil
  | cons head _ induction => exact cons (keeps _ _ _ head) induction

theorem intersperse (separator : String) (grown : GrownAll k longs shorts) :
    GrownAll k (longs.intersperse separator) (shorts.intersperse separator) := by
  induction grown with
  | nil => exact nil
  | cons head tail induction =>
      cases tail with
      | nil => exact cons head nil
      | cons next rest =>
          rw [← Nat.zero_add (_ + _)]
          have between := cons (Grown.refl separator) induction
          rw [Nat.zero_add] at between ⊢
          exact cons head between

theorem intercalate (separator : String) (grown : GrownAll k longs shorts) :
    Grown k (separator.intercalate longs) (separator.intercalate shorts) := by
  induction grown with
  | nil => exact .refl ""
  | cons head tail induction =>
      cases tail with
      | nil => simpa using head
      | cons next rest =>
          simp only [String.intercalate_cons_cons]
          simp only [Grown, String.length_append] at *
          omega

theorem clause (keyword separator : String) (grown : GrownAll k longs shorts) :
    Grown k (clause keyword separator longs) (SqlQuery.clause keyword separator shorts) := by
  have joined := grown.intercalate separator
  cases grown with
  | nil => exact .refl ""
  | cons head tail =>
      simp only [SqlQuery.clause, Grown, String.length_append] at *
      omega

theorem selectList (grown : GrownAll k longs shorts) :
    Grown k (selectList longs) (SqlQuery.selectList shorts) := by
  have joined := grown.intercalate ", "
  cases grown with
  | nil => exact .refl "*"
  | cons head tail => exact joined

end GrownAll

/-- A dialect that shows what it is given: its texts are longer if their parts are. -/
structure Dialect.Growing (d : Dialect) : Prop where
  toText : ∀ k long short, Grown k long short → Grown k (d.toText long) (d.toText short)
  concat : ∀ k longs shorts, GrownAll k longs shorts → Grown k (d.concat longs) (d.concat shorts)
  isDistinctFrom : ∀ j k long short long' short', Grown j long short → Grown k long' short' →
    Grown (j + k) (d.isDistinctFrom long long') (d.isDistinctFrom short short')
  explain : ∀ k long short, Grown k long short → Grown k (d.explain long) (d.explain short)

/-! Names and aliases, which may be longer too. -/

theorem Draft.generatedName_grown {m n : Nat} (le : m ≤ n) :
    Grown 0 (generatedName n) (generatedName m) := by
  have some : 0 < (Nat.toDigits 10 n).length := List.length_pos_iff.mpr Nat.toDigits_ne_nil
  have bound : n < 10 ^ (Nat.toDigits 10 n).length :=
    (Nat.length_toDigits_le_iff (by decide) some).mp (Nat.le_refl _)
  have digits : (Nat.toDigits 10 m).length ≤ (Nat.toDigits 10 n).length :=
    (Nat.length_toDigits_le_iff (by decide) some).mpr (Nat.lt_of_le_of_lt le bound)
  simpa only [Grown, generatedName, String.length_append, Nat.toString_eq_ofList_toDigits,
    String.length_ofList, Nat.add_zero, Nat.add_le_add_iff_left] using digits

section Stretch

variable {varied : Prop}

/-- The same name or, where names may vary, one that is no shorter. -/
def Stretched (varied : Prop) (long short : String) : Prop :=
  long = short ∨ varied ∧ Grown 0 long short

theorem Stretched.grown {long short : String} (stretched : Stretched varied long short) :
    Grown 0 long short := by
  rcases stretched with rfl | ⟨-, grown⟩
  · exact .refl _
  · exact grown

theorem Rendering.Agree.newName :
    Agree varied (Stretched varied) Rendering.newName Rendering.newName := by
  intro long short a first b second ahead left right
  cases left
  cases right
  rcases ahead with rfl | ⟨may, fewer⟩
  · exact ⟨.inl rfl, .inl rfl⟩
  · have le := Nat.succ_le_succ fewer
    exact ⟨.inr ⟨may, le⟩, .inr ⟨may, Draft.generatedName_grown le⟩⟩

/-- An alias of the same relations, under the same name or a longer one. -/
structure ScopedAlias.Stretches (varied : Prop) (long short : ScopedAlias) : Prop where
  owners : long.owners = short.owners
  name : Stretched varied long.name short.name

/-- Two contexts of one node. The long one has further aliases in scope. Where drafts may vary, its
own aliases may have longer names, and it may be in a FROM clause where the short one is not. -/
structure Stretch (varied : Prop) where
  short : Context
  outer : List ScopedAlias
  inner : List ScopedAlias
  inSelect : Bool
  place : inSelect = short.inSelect ∨ varied ∧ inSelect = true
  aliases : List.Forall₂ (ScopedAlias.Stretches varied) inner short.aliases
  growing : short.dialect.Growing
  names : varied → short.dialect.QuotesPlainly

namespace Stretch

def long (both : Stretch varied) : Context :=
  { both.short with inSelect := both.inSelect, aliases := both.outer ++ both.inner }

def placed (both : Stretch varied) (inSelect inJoin : Bool) : Stretch varied :=
  { both with short := both.short.placed inSelect inJoin, inSelect, place := .inl rfl }

def defining (both : Stretch varied) : Stretch varied where
  short := both.short.defining
  outer := []
  inner := []
  inSelect := false
  place := .inl rfl
  aliases := .nil
  growing := both.growing
  names := both.names

def joined (both : Stretch varied) {longs shorts : List ScopedAlias}
    (named : List.Forall₂ (ScopedAlias.Stretches varied) longs shorts) : Stretch varied where
  short := both.short.joined shorts
  outer := both.outer
  inner := both.inner ++ longs
  inSelect := false
  place := .inl rfl
  aliases := List.rel_append both.aliases named
  growing := both.growing
  names := both.names

variable (both : Stretch varied)

theorem long_joined {longs shorts : List ScopedAlias}
    (named : List.Forall₂ (ScopedAlias.Stretches varied) longs shorts) :
    (both.joined named).long = both.long.joined longs := by
  simp only [long, joined, Context.joined, Context.placed, List.append_assoc]

theorem scope_inner : ScopedAlias.scope both.inner = ScopedAlias.scope both.short.aliases := by
  have aliases := both.aliases
  generalize both.inner = inner at aliases
  generalize both.short.aliases = shorts at aliases
  induction aliases with
  | nil => rfl
  | cons head _ ih => exact congrArg₂ List.cons head.owners ih

theorem quote_grown {long short : String} (stretched : Stretched varied long short) :
    Grown 0 (both.short.quote long) (both.short.quote short) := by
  rcases stretched with rfl | ⟨may, grown⟩
  · exact .refl _
  · rw [Context.quote, Context.quote, both.names may]
    exact grown.around _ _

theorem owning_stretches {longs shorts : List ScopedAlias} (owner : RelationId)
    (named : List.Forall₂ (ScopedAlias.Stretches varied) longs shorts) :
    List.Forall₂ (ScopedAlias.Stretches varied) (ScopedAlias.owning longs owner)
      (ScopedAlias.owning shorts owner) := by
  induction named with
  | nil => exact .nil
  | @cons long short longs shorts head _ ih =>
      simp only [ScopedAlias.owning, List.filter_cons, head.owners] at ih ⊢
      split
      · exact .cons head ih
      · exact ih

/-- Longer names of the aliases that are in scope in both contexts. -/
theorem column_inner_grown {owner : RelationId} {name long short : String}
    (longOk : (both.short.under both.inner).column owner name = .ok long)
    (shortOk : both.short.column owner name = .ok short) : Grown 0 long short := by
  rw [Context.column_eq_columnAfter] at longOk shortOk
  have candidates : List.Forall₂ (ScopedAlias.Stretches varied)
      (ScopedAlias.candidates both.inner owner)
      (ScopedAlias.candidates both.short.aliases owner) := by
    rw [ScopedAlias.candidates, ScopedAlias.candidates, both.aliases.length_eq]
    split
    · exact .nil
    · exact owning_stretches owner both.aliases
  change both.short.columnAfter name (ScopedAlias.candidates both.inner owner) = .ok long at longOk
  generalize ScopedAlias.candidates both.inner owner = longs at candidates longOk
  generalize ScopedAlias.candidates both.short.aliases owner = shorts at candidates shortOk
  cases candidates with
  | nil =>
      cases longOk
      cases shortOk
      exact .refl _
  | cons head tail =>
      cases tail with
      | nil =>
          cases longOk
          cases shortOk
          exact ((both.quote_grown head.name).append (.refl ".")).append (.refl _)
      | cons _ _ => cases longOk

/-- A column is longer if the further aliases disturb it. -/
theorem column_grown {owner : RelationId} {name long short : String}
    (longOk : both.long.column owner name = .ok long)
    (shortOk : both.short.column owner name = .ok short) :
    Grown (disturbances (ScopedAlias.scope both.outer)
      [⟨ScopedAlias.scope both.short.aliases, owner⟩]) long short := by
  simp only [disturbances, List.countP_singleton]
  rw [← both.scope_inner]
  change (both.short.under (both.outer ++ both.inner)).column owner name = .ok long at longOk
  by_cases undisturbed : Occurrence.Undisturbed (ScopedAlias.scope both.outer)
      ⟨ScopedAlias.scope both.inner, owner⟩
  · rw [Context.column_append_of_undisturbed both.short name undisturbed] at longOk
    simpa [undisturbed] using both.column_inner_grown longOk shortOk
  · obtain ⟨text, textOk, longer⟩ := Context.column_append_of_disturbed both.short name undisturbed
    have grown := both.column_inner_grown textOk shortOk
    have := longer long longOk
    simp only [undisturbed, Grown, decide_false, Bool.not_false, if_true] at grown ⊢
    omega

end Stretch

theorem sourceAlias_agree (r : Relation) :
    Rendering.Agree varied
      (fun long short => ScopedAlias.Stretches varied long short ∧ short.owners = r.owned)
      (sourceAlias r) (sourceAlias r) := by
  have generated : Rendering.Agree varied
      (fun long short => ScopedAlias.Stretches varied long short ∧ short.owners = [r.id])
      (do return ⟨← Rendering.newName, [r.id]⟩) (do return ⟨← Rendering.newName, [r.id]⟩) := by
    apply Rendering.Agree.newName.bind
    intro long short named
    exact .pure ⟨⟨rfl, named⟩, rfl⟩
  cases r with
  | aliased a => exact .pure ⟨⟨rfl, .inl rfl⟩, rfl⟩
  | _ => exact generated

theorem joinAliases_agree (sources : List Relation) :
    Rendering.Agree varied
      (fun longs shorts => List.Forall₂ (ScopedAlias.Stretches varied) longs shorts ∧
        ScopedAlias.scope shorts = joinScope sources)
      (joinAliases sources) (joinAliases sources) := by
  induction sources with
  | nil => exact .pure ⟨.nil, rfl⟩
  | cons r rest ih =>
      rw [joinAliases_cons]
      apply (sourceAlias_agree r).bind
      rintro long short ⟨named, owners⟩
      apply ih.bind
      rintro longs shorts ⟨others, scope⟩
      exact .pure ⟨.cons named others, congrArg₂ List.cons owners scope⟩

end Stretch

/-! Growth of the parts of a query. -/

section Grows

variable (varied : Prop) (links : Links) (reach : Reach)

/-- With further aliases in scope, a text grows by the number of columns that they disturb, where
it can be written at all. -/
def Grows (R : Nat → α → α → Prop) (occurrences : Scope → List Occurrence)
    (render : Context → Rendering α) : Prop :=
  ∀ both : Stretch varied, Rendering.Agree varied
    (R (disturbances (ScopedAlias.scope both.outer)
      (occurrences (ScopedAlias.scope both.short.aliases))))
    (render both.long) (render both.short)

structure Links.Grows : Prop where
  placeholder : ∀ id name,
    SqlQuery.Grows varied Grown (reach.placeholder id) (links.placeholder id name)
  param : ∀ name, SqlQuery.Grows varied Grown (reach.param name) (links.param name)

def Expr.Grows (e : Expr) : Prop :=
  SqlQuery.Grows varied Grown (fun scope => e.occurrences reach scope) fun ctx => e.render links ctx

def Relation.Grows (r : Relation) : Prop :=
  SqlQuery.Grows varied Grown (fun scope => r.occurrences reach scope) fun ctx => r.render links ctx

variable {varied links reach}

theorem Grows.placed {R : Nat → α → α → Prop} {occurrences : Scope → List Occurrence}
    {render : Context → Rendering α} (grows : SqlQuery.Grows varied R occurrences render)
    (both : Stretch varied) (inSelect inJoin : Bool) :
    Rendering.Agree varied
      (R (disturbances (ScopedAlias.scope both.outer)
        (occurrences (ScopedAlias.scope both.short.aliases))))
      (render (both.long.placed inSelect inJoin)) (render (both.short.placed inSelect inJoin)) :=
  grows (both.placed inSelect inJoin)

theorem Grows.joined {R : Nat → α → α → Prop} {occurrences : Scope → List Occurrence}
    {render : Context → Rendering α} (grows : SqlQuery.Grows varied R occurrences render)
    (both : Stretch varied) {longs shorts : List ScopedAlias}
    (named : List.Forall₂ (ScopedAlias.Stretches varied) longs shorts) :
    Rendering.Agree varied
      (R (disturbances (ScopedAlias.scope both.outer)
        (occurrences (ScopedAlias.scope both.short.aliases ++ ScopedAlias.scope shorts))))
      (render (both.long.joined longs)) (render (both.short.joined shorts)) := by
  rw [← both.long_joined named, ← ScopedAlias.scope_append]
  exact grows (both.joined named)

theorem disturbances_append (scope : Scope) (first second : List Occurrence) :
    disturbances scope (first ++ second) =
      disturbances scope first + disturbances scope second :=
  List.countP_append ..

theorem Expr.renderAll_grows {es : List Expr} (grows : ∀ e ∈ es, e.Grows varied links reach) :
    SqlQuery.Grows varied GrownAll (fun scope => Expr.occurrencesOfAll reach scope es)
      fun ctx => Expr.renderAll links ctx es := by
  induction es with
  | nil => exact fun _ => .pure .nil
  | cons e rest induction =>
      obtain ⟨headGrows, restGrows⟩ := List.forall_mem_cons.mp grows
      intro both
      simp only [Expr.renderAll, Expr.occurrencesOfAll, disturbances_append]
      apply Rendering.Agree.bind (headGrows both)
      intro long short grown
      apply Rendering.Agree.bind (induction restGrows both)
      intro longs shorts grownAll
      exact .pure (.cons grown grownAll)

theorem Expr.renderBranches_grows {branches : List (BranchOf Expr)}
    (grows : ∀ b ∈ branches,
      b.condition.Grows varied links reach ∧ b.result.Grows varied links reach) :
    SqlQuery.Grows varied Grown (fun scope => Expr.occurrencesOfBranches reach scope branches)
      fun ctx => Expr.renderBranches links ctx branches := by
  induction branches with
  | nil => exact fun _ => .pure (.refl "")
  | cons branch rest induction =>
      obtain ⟨⟨conditionGrows, resultGrows⟩, restGrows⟩ := List.forall_mem_cons.mp grows
      intro both
      simp only [Expr.renderBranches, Expr.occurrencesOfBranches, disturbances_append]
      apply Rendering.Agree.bind (conditionGrows both)
      intro longCondition shortCondition condition
      apply Rendering.Agree.bind (resultGrows both)
      intro longResult shortResult result
      apply Rendering.Agree.bind (induction restGrows both)
      intro longRest shortRest rest
      apply Rendering.Agree.pure
      simp only [Grown, String.length_append] at *
      omega

theorem Relation.renderAll_grows {rs : List Relation}
    (grows : ∀ r ∈ rs, r.Grows varied links reach) :
    SqlQuery.Grows varied (fun k longs shorts => GrownAll k longs shorts ∧
        shorts.length = rs.length)
      (fun scope => Relation.occurrencesOfAll reach scope rs)
      fun ctx => Relation.renderAll links ctx rs := by
  induction rs with
  | nil => exact fun _ => .pure ⟨.nil, rfl⟩
  | cons r rest induction =>
      obtain ⟨headGrows, restGrows⟩ := List.forall_mem_cons.mp grows
      intro both
      simp only [Relation.renderAll, Relation.occurrencesOfAll, disturbances_append]
      apply Rendering.Agree.bind (headGrows both)
      intro long short grown
      apply Rendering.Agree.bind (induction restGrows both)
      rintro longs shorts ⟨grownAll, length⟩
      exact .pure ⟨.cons grown grownAll, congrArg (· + 1) length⟩

theorem Relation.renderFrom_grows {source : Option Relation}
    (grows : ∀ r, source = some r → r.Grows varied links reach) :
    SqlQuery.Grows varied (fun k long short => GrownAll k long.toList short.toList)
      (fun scope => Relation.occurrencesOfOptional reach scope source)
      fun ctx => Relation.renderFrom links ctx source := by
  cases source with
  | none => exact fun _ => .pure (.refl _)
  | some r =>
      intro both
      simp only [Relation.renderFrom]
      apply Rendering.Agree.bind (grows r rfl both)
      intro long short grown
      exact .pure (.singleton grown)

theorem Expr.renderSelected_grows {columns : Option (List Expr)}
    (grows : ∀ es, columns = some es → ∀ e ∈ es, e.Grows varied links reach) :
    SqlQuery.Grows varied GrownAll (fun scope => Expr.occurrencesOfOptional reach scope columns)
      fun ctx => Expr.renderSelected links ctx columns := by
  cases columns with
  | none => exact fun _ => .pure .nil
  | some es => exact Expr.renderAll_grows (grows es rfl)

theorem Expr.renderJoined_grows {columns : Option (List Expr)}
    (grows : ∀ es, columns = some es → ∀ e ∈ es, e.Grows varied links reach) :
    SqlQuery.Grows varied Grown (fun scope => Expr.occurrencesOfOptional reach scope columns)
      fun ctx => Expr.renderJoined links ctx columns := by
  cases columns with
  | none => exact fun _ => .pure (.refl "*")
  | some es =>
      intro both
      simp only [Expr.renderJoined]
      apply Rendering.Agree.bind (Expr.renderAll_grows (grows es rfl) both)
      intro longs shorts grown
      exact .pure (grown.intercalate ", ")

theorem Grown.enclose {k : Nat} {long short : String} (grown : Grown k long short)
    (both : Stretch varied) :
    Rendering.Agree varied (Grown k) (both.long.enclose long) (both.short.enclose short) := by
  have place := both.place
  simp only [Context.enclose]
  change Rendering.Agree varied (Grown k)
    (if both.inSelect then _ else if both.short.inJoin then _ else _) _
  cases inSelect : both.short.inSelect with
  | true =>
      have longInSelect : both.inSelect = true := by
        rcases place with same | ⟨-, longInSelect⟩
        · exact same.trans inSelect
        · exact longInSelect
      rw [if_pos longInSelect, if_pos rfl]
      apply Rendering.Agree.newName.bind
      intro longName shortName named
      exact .pure ((grown.around "(" ") ").append named.grown)
  | false =>
      rw [if_neg Bool.false_ne_true]
      have plain : Rendering.Agree varied (Grown k)
          (if both.short.inJoin then pure ("(" ++ long ++ ")") else pure long)
          (if both.short.inJoin then pure ("(" ++ short ++ ")") else pure short) := by
        split
        · exact .pure (grown.around "(" ")")
        · exact .pure grown
      rcases place with same | ⟨may, longInSelect⟩
      · rw [same, inSelect, if_neg Bool.false_ne_true]
        exact plain
      · rw [if_pos longInSelect]
        apply Rendering.Agree.newName_left may
        intro name
        have closing : ")".length ≤ ") ".length := by decide
        split
        · apply Rendering.Agree.pure
          simp only [Grown, String.length_append] at *
          omega
        · apply Rendering.Agree.pure
          simp only [Grown, String.length_append] at *
          omega

theorem Relation.Grows.query {r : Relation} (grows : r.Grows varied links reach) :
    SqlQuery.Grows varied Grown (fun scope => r.occurrences reach scope)
      fun ctx => ctx.query r fun ctx => r.render links ctx := by
  intro both
  simp only [Context.query_omitted]
  by_cases isQuery : r.isQuery = true
  · rw [if_pos isQuery, if_pos isQuery]
    exact grows both
  · rw [if_neg isQuery, if_neg isQuery]
    apply Rendering.Agree.bind (grows.placed both true _)
    intro long short grown
    exact (grown.after "SELECT * FROM ").enclose both

theorem selectText_grows {columns : Context → Rendering (List String)}
    {source : Context → Rendering (Option String)}
    {filters groupBy having orderBy : Context → Rendering (List String)}
    {inColumns inSource inFilters inGroupBy inHaving inOrderBy : Scope → List Occurrence}
    (distinct : Bool) (limit : Option UInt64)
    (columnsGrow : SqlQuery.Grows varied GrownAll inColumns columns)
    (sourceGrows : SqlQuery.Grows varied
      (fun k long short => GrownAll k long.toList short.toList) inSource source)
    (filtersGrow : SqlQuery.Grows varied GrownAll inFilters filters)
    (groupByGrows : SqlQuery.Grows varied GrownAll inGroupBy groupBy)
    (havingGrows : SqlQuery.Grows varied GrownAll inHaving having)
    (orderByGrows : SqlQuery.Grows varied GrownAll inOrderBy orderBy) :
    SqlQuery.Grows varied Grown
      (fun scope => inColumns scope ++ inSource scope ++ inFilters scope ++ inGroupBy scope ++
        inHaving scope ++ inOrderBy scope)
      (fun ctx => do
        let inner := ctx.placed true ctx.inJoin
        let sql ← selectText ctx.dialect distinct limit (columns inner) (source inner)
          (filters inner) (groupBy inner) (having inner) (orderBy inner)
        ctx.enclose sql) := by
  intro both
  simp only [selectText, bind_assoc, pure_bind, disturbances_append]
  apply Rendering.Agree.bind (columnsGrow.placed both true _)
  intro longColumns shortColumns columns
  apply Rendering.Agree.bind (sourceGrows.placed both true _)
  intro longSource shortSource source
  apply Rendering.Agree.bind (filtersGrow.placed both true _)
  intro longFilters shortFilters filters
  apply Rendering.Agree.bind (groupByGrows.placed both true _)
  intro longGroupBy shortGroupBy groupBy
  apply Rendering.Agree.bind (havingGrows.placed both true _)
  intro longHaving shortHaving having
  apply Rendering.Agree.bind (orderByGrows.placed both true _)
  intro longOrderBy shortOrderBy orderBy
  apply Grown.enclose
  have columns := columns.selectList
  have source := source.clause "FROM" ""
  have filters := filters.clause "WHERE" " AND "
  have groupBy := groupBy.clause "GROUP BY" ", "
  have having := having.clause "HAVING" " AND "
  have orderBy := orderBy.clause "ORDER BY" ", "
  change Grown _
    (_ ++ (if limit.isSome then " " ++ both.short.dialect.offsetLimit none limit else ""))
    (_ ++ (if limit.isSome then " " ++ both.short.dialect.offsetLimit none limit else ""))
  simp only [Grown, String.length_append] at *
  omega

theorem Relation.select_grows {s : Select}
    (parts : s.Parts (Expr.Grows varied links reach) (Relation.Grows varied links reach)) :
    (Relation.select s).Grows varied links reach := by
  intro both
  simp only [Relation.occurrences_select, Relation.render_select]
  exact selectText_grows s.distinct s.limit (Expr.renderSelected_grows parts.columns)
    (Relation.renderFrom_grows parts.table) (Expr.renderAll_grows parts.filters)
    (Expr.renderAll_grows parts.groupBy) (Expr.renderAll_grows parts.having)
    (Expr.renderAll_grows parts.orderBy) both

theorem Expr.renderAll_append_grows {first second : List Expr}
    (firstGrows : ∀ e ∈ first, e.Grows varied links reach)
    (secondGrows : ∀ e ∈ second, e.Grows varied links reach) :
    SqlQuery.Grows varied GrownAll
      (fun scope => Expr.occurrencesOfAll reach scope first ++
        Expr.occurrencesOfAll reach scope second)
      fun ctx => do
        return (← Expr.renderAll links ctx first) ++ (← Expr.renderAll links ctx second) := by
  intro both
  rw [disturbances_append]
  apply Rendering.Agree.bind (Expr.renderAll_grows firstGrows both)
  intro longs shorts grown
  apply Rendering.Agree.bind (Expr.renderAll_grows secondGrows both)
  intro longs' shorts' grown'
  exact .pure (grown.append grown')

theorem Relation.grouping_grows {table : Relation} {keys values having : List Expr}
    (id : RelationId) (tableGrows : table.Grows varied links reach)
    (parts : ∀ s, table = .select s →
      s.Parts (Expr.Grows varied links reach) (Relation.Grows varied links reach))
    (keysGrow : ∀ e ∈ keys, e.Grows varied links reach)
    (valuesGrow : ∀ e ∈ values, e.Grows varied links reach)
    (havingGrows : ∀ e ∈ having, e.Grows varied links reach) :
    (Relation.grouping ⟨id, table, keys, values, having⟩).Grows varied links reach := by
  intro both
  rcases table.plain_or_nested with ⟨s, rfl, plain⟩ | nested
  · have selectParts := parts s rfl
    have positions : SqlQuery.Grows varied GrownAll (fun _ => [])
        (fun _ => (pure (keyPositions keys) : Rendering _)) :=
      fun _ => .pure (.refl _)
    have grows := selectText_grows false none (Expr.renderAll_append_grows keysGrow valuesGrow)
      (Relation.renderFrom_grows selectParts.table) (Expr.renderAll_grows selectParts.filters)
      positions (Expr.renderAll_grows havingGrows) (Expr.renderAll_grows selectParts.orderBy) both
    simp only [Relation.occurrences_grouping_plain _ _ _ _ _ _ _ plain,
      Relation.render_grouping_plain _ _ _ _ _ _ _ plain]
    apply grows.mono
    intro long short grown
    simp only [disturbances_append, Grown] at grown ⊢
    omega
  · simp only [Relation.occurrences_grouping_nested _ _ _ _ _ _ _ nested,
      Relation.render_grouping_nested _ _ _ _ _ _ _ nested, disturbances_append]
    apply Rendering.Agree.bind (Expr.renderAll_grows keysGrow both)
    intro longKeys shortKeys keyTexts
    apply Rendering.Agree.bind (Expr.renderAll_grows valuesGrow both)
    intro longValues shortValues valueTexts
    apply Rendering.Agree.bind (tableGrows.placed both true false)
    intro longSource shortSource source
    apply Rendering.Agree.bind (Expr.renderAll_grows havingGrows both)
    intro longHaving shortHaving havingTexts
    apply Grown.enclose
    have columns := (keyTexts.append valueTexts).intercalate ", "
    have havingText := havingTexts.clause "HAVING" " AND "
    simp only [groupingText, Grown, String.length_append] at *
    omega

theorem aliasedSource_grown (both : Stretch varied) (r : Relation) {a b : ScopedAlias} {k : Nat}
    {long short : String} (named : ScopedAlias.Stretches varied a b) (grown : Grown k long short) :
    Grown k (aliasedSource both.long (r, a) long) (aliasedSource both.short (r, b) short) := by
  have name := both.quote_grown named.name
  change Grown 0 (both.long.quote a.name) (both.short.quote b.name) at name
  cases r with
  | aliased _ => exact grown
  | _ =>
      simp only [aliasedSource, Grown, String.length_append] at *
      omega

theorem sourceTexts_grown (both : Stretch varied) {k : Nat} {longs shorts : List String}
    (grown : GrownAll k longs shorts) {sources : List Relation} {as bs : List ScopedAlias}
    (named : List.Forall₂ (ScopedAlias.Stretches varied) as bs)
    (count : shorts.length = sources.length) (aliasCount : bs.length = sources.length) :
    GrownAll k ((sources.zip as).zipWith (aliasedSource both.long) longs)
      ((sources.zip bs).zipWith (aliasedSource both.short) shorts) := by
  induction grown generalizing sources as bs with
  | nil => simpa using .nil
  | cons head _ ih =>
      cases sources with
      | nil => cases count
      | cons r sources =>
          cases named with
          | nil => cases aliasCount
          | cons first others =>
              exact .cons (aliasedSource_grown both r first head)
                (ih others (Nat.succ.inj count) (Nat.succ.inj aliasCount))

theorem Relation.join_grows {sources : List Relation} {on : List Expr}
    {columns : Option (List Expr)} (id : RelationId) (kind : JoinKind)
    (sourcesGrow : ∀ r ∈ sources, r.Grows varied links reach)
    (onGrows : ∀ e ∈ on, e.Grows varied links reach)
    (columnsGrow : ∀ es, columns = some es → ∀ e ∈ es, e.Grows varied links reach) :
    (Relation.join ⟨id, sources, kind, on, columns⟩).Grows varied links reach := by
  intro both
  simp only [Relation.occurrences_join, Relation.render_join, disturbances_append]
  apply (joinAliases_agree sources).bind
  rintro longs shorts ⟨named, owners⟩
  rw [← owners]
  apply Rendering.Agree.bind ((Relation.renderAll_grows sourcesGrow).joined both named)
  rintro longTexts shortTexts ⟨texts, count⟩
  apply Rendering.Agree.bind ((Expr.renderAll_grows onGrows).joined both named)
  intro longOn shortOn onTexts
  apply Rendering.Agree.bind ((Expr.renderJoined_grows columnsGrow).joined both named)
  intro longColumns shortColumns columnsText
  have aliasCount : shorts.length = sources.length := by
    have lengths := congrArg List.length owners
    rwa [ScopedAlias.length_scope, joinScope, List.length_map] at lengths
  have sourceTexts :=
    (sourceTexts_grown both texts named count aliasCount).intercalate kind.separator
  have onText := onTexts.clause "ON" " AND "
  apply Grown.enclose
  simp only [joinText, Grown, String.length_append] at *
  omega

theorem concatText_grown {d : Dialect} (growing : d.Growing) (separator : Option String) {k : Nat}
    {longs shorts : List String} (grown : GrownAll k longs shorts) {long short : String}
    (longOk : concatText d separator longs = .ok long)
    (shortOk : concatText d separator shorts = .ok short) : Grown k long short := by
  have items := grown.map (f := fun item => "coalesce(" ++ d.toText item ++ ", '<null>')")
    fun k long short grown => (growing.toText k long short grown).around "coalesce(" ", '<null>')"
  unfold concatText at longOk shortOk
  generalize longs.map (fun item => "coalesce(" ++ d.toText item ++ ", '<null>')") = longItems
    at items longOk
  generalize shorts.map (fun item => "coalesce(" ++ d.toText item ++ ", '<null>')") = shortItems
    at items shortOk
  have whole := items
  cases items with
  | nil => cases longOk
  | cons head tail =>
      cases tail with
      | nil =>
          cases longOk
          cases shortOk
          exact head
      | cons next rest =>
          cases separator with
          | none =>
              cases longOk
              cases shortOk
              exact growing.concat _ _ _ whole
          | some separator =>
              cases longOk
              cases shortOk
              exact growing.concat _ _ _ (whole.intersperse _)

theorem definitionName_agree (name : Option String) :
    Rendering.Agree varied (Stretched varied) (definitionName name) (definitionName name) := by
  cases name with
  | some name => exact .pure (.inl rfl)
  | none => exact .newName

/-- Every query grows if what stands behind its placeholders and parameters does. -/
theorem Links.Grows.induction (linked : links.Grows varied reach) :
    QueryInduction (Expr.Grows varied links reach) (Relation.Grows varied links reach) where
  value _ := fun _ => .pure (.refl _)
  code _ := fun _ => .pure (.refl _)
  column c := by
    obtain ⟨source, name⟩ := c
    intro both
    simp only [Expr.render, Expr.occurrences]
    apply Rendering.Agree.lift
    intro long short longOk shortOk
    exact both.column_grown longOk shortOk
  placeholder id name := linked.placeholder id name
  aliased e name grows := by
    intro both
    simp only [Expr.render]
    apply Rendering.Agree.bind (grows both)
    intro long short grown
    apply Rendering.Agree.pure
    exact (grown.append (.refl " AS ")).append (.refl (both.short.quote name))
  concat items separator grows := by
    intro both
    simp only [Expr.render]
    apply Rendering.Agree.bind (Expr.renderAll_grows grows both)
    intro longs shorts grown
    apply Rendering.Agree.lift
    intro long short longOk shortOk
    exact concatText_grown both.growing separator grown longOk shortOk
  countAll distinct := fun _ => .pure (.refl _)
  count e distinct grows := by
    intro both
    simp only [Expr.render_count, Expr.renderCounted]
    apply Rendering.Agree.bind (grows both)
    intro long short grown
    exact .pure (grown.around ("count(" ++ (if distinct then "distinct " else "")) ")")
  call function arguments grows := by
    intro both
    simp only [Expr.render]
    apply Rendering.Agree.bind (Expr.renderAll_grows grows both)
    intro longs shorts grown
    exact .pure ((grown.intercalate ", ").around (function ++ "(") ")")
  case branches otherwise branchesGrow otherwiseGrows := by
    intro both
    simp only [Expr.render_case]
    by_cases empty : branches.isEmpty = true
    · rw [if_pos empty]
      exact .throw _ _
    · rw [if_neg empty, if_neg empty]
      cases otherwise with
      | none =>
          apply Rendering.Agree.bind (Expr.renderBranches_grows branchesGrow both)
          intro long short grown
          exact .pure ((grown.around "CASE" "").append (.refl " END"))
      | some e =>
          simp only [Expr.occurrences, disturbances_append, Expr.renderElse, bind_assoc, pure_bind]
          apply Rendering.Agree.bind (Expr.renderBranches_grows branchesGrow both)
          intro longBranches shortBranches branchTexts
          apply Rendering.Agree.bind (otherwiseGrows e rfl both)
          intro long short grown
          apply Rendering.Agree.pure
          simp only [Grown, String.length_append] at *
          omega
  isDistinctFrom left right leftGrows rightGrows := by
    intro both
    simp only [Expr.render, Expr.occurrences, disturbances_append]
    apply Rendering.Agree.bind (leftGrows both)
    intro longLeft shortLeft leftText
    apply Rendering.Agree.bind (rightGrows both)
    intro longRight shortRight rightText
    exact .pure (both.growing.isDistinctFrom _ _ _ _ _ _ leftText rightText)
  binary operator arguments grows := by
    intro both
    simp only [Expr.render]
    apply Rendering.Agree.bind (Expr.renderAll_grows grows both)
    intro longs shorts grown
    exact .pure ((grown.intercalate _).around "(" ")")
  negate e grows := by
    intro both
    simp only [Expr.render]
    apply Rendering.Agree.bind (grows both)
    intro long short grown
    exact .pure (grown.around "(-" ")")
  isIn e list grows listGrows := by
    intro both
    simp only [Expr.render, Expr.occurrences, disturbances_append]
    apply Rendering.Agree.bind (grows both)
    intro long short grown
    apply Rendering.Agree.bind (Expr.renderAll_grows listGrows both)
    intro longs shorts listTexts
    apply Rendering.Agree.pure
    have listText := listTexts.intercalate ", "
    simp only [Grown, String.length_append] at *
    omega
  cast e type grows := by
    intro both
    simp only [Expr.render]
    apply Rendering.Agree.bind (grows both)
    intro long short grown
    apply Rendering.Agree.pure
    exact ((grown.around "cast(" " as ").append (.refl (both.short.dialect.typeName type))).append
      (.refl ")")
  random := fun _ => .pure (.refl _)
  currentTimestamp := fun _ => .pure (.refl _)
  param name := linked.param name
  subquery r grows := by
    intro both
    simp only [Expr.render]
    apply Rendering.Agree.bind (grows.query.placed both false false)
    intro long short grown
    exact .pure (grown.around "(" ")")
  table _ := fun _ => .pure (.refl _)
  tableAlias id source name grows := by
    intro both
    simp only [Relation.render]
    apply Rendering.Agree.bind (grows.placed both false true)
    intro long short grown
    apply Rendering.Agree.pure
    exact (grown.append (.refl " ")).append (.refl (both.short.quote name))
  join id _ kind _ _ sourcesGrow onGrows columnsGrow :=
    Relation.join_grows id kind sourcesGrow onGrows columnsGrow
  grouping id _ _ _ _ tableGrows parts keysGrow valuesGrow havingGrows :=
    Relation.grouping_grows id tableGrows parts keysGrow valuesGrow havingGrows
  setOperation id operator left right leftGrows rightGrows := by
    intro both
    simp only [Relation.render, Relation.occurrences, disturbances_append]
    apply Rendering.Agree.bind (leftGrows.query.placed both false _)
    intro longLeft shortLeft leftText
    apply Rendering.Agree.bind (rightGrows.query.placed both false _)
    intro longRight shortRight rightText
    apply Grown.enclose
    simp only [Grown, String.length_append] at *
    omega
  select _ parts := Relation.select_grows parts
  cte id source name params grows := by
    intro both
    simp only [Relation.render_cte]
    -- both contexts are the same inside a definition, and only the names there may differ
    apply Rendering.Agree.self (.refl ·)
    intro may
    apply Rendering.Agree.bind (grows.query both.defining)
    intro longBody shortBody _
    apply Rendering.Agree.bind (definitionName_agree name)
    intro longName shortName named
    apply Rendering.Agree.bind (.define may _ _ _ _)
    intro _ _ _
    exact .pure named.grown
  tableParam p := linked.param p.name

theorem Node.render_grows (linked : links.Grows varied reach) (node : Node) :
    SqlQuery.Grows varied Grown (fun scope => node.occurrences reach scope)
      fun ctx => node.render links ctx := by
  have relationGrows := linked.induction.relation
  match node with
  | .expr e => exact linked.induction.expr e
  | .relation r => exact relationGrows r
  | .statement (.create ⟨t, none, ifNotExists, primaryKeys⟩) =>
      intro both
      simp only [Node.render, Statement.render, CreateTable.render]
      cases t.schema with
      | none => exact .throw _ _
      | some schema => exact .pure (.refl _)
  | .statement (.create ⟨t, some r, ifNotExists, primaryKeys⟩) =>
      intro both
      simp only [Node.render, Statement.render, CreateTable.render]
      apply Rendering.Agree.bind (relationGrows r both)
      intro long short grown
      exact .pure (grown.after _)
  | .statement (.insert ⟨t, .rows rows, columns⟩) =>
      intro both
      simp only [Node.render, Statement.render, Insert.render]
      exact .pure (.refl _)
  | .statement (.insert ⟨t, .query r, columns⟩) =>
      intro both
      simp only [Node.render, Statement.render, Insert.render]
      apply Rendering.Agree.bind (relationGrows r both)
      intro long short grown
      exact .pure (grown.after _)
  | .statement (.explain r) =>
      intro both
      simp only [Node.render, Statement.render]
      apply Rendering.Agree.bind ((relationGrows r).query both)
      intro long short grown
      exact .pure (both.growing.explain _ _ _ grown)
  | .statement (.drop _) => exact fun _ => .pure (.refl _)
  | .statement (.truncate _) => exact fun _ => .pure (.refl _)
  | .statement .commit => exact fun _ => .pure (.refl _)

theorem Settings.links_grow (varied : Prop) (store : Store) (settings : Settings) (depth : Nat) :
    (settings.links store depth).Grows varied (settings.reach store depth) := by
  induction depth with
  | zero =>
      constructor
      · intro id name both
        simp only [Settings.links, Store.resolve]
        cases store.binding? id <;> exact .throw _ _
      · intro name both
        simp only [Settings.links, Settings.param]
        cases settings.params.bind (·.lookup name) <;> exact .throw _ _
  | succ depth induction =>
      constructor
      · intro id name both
        simp only [Settings.links, Settings.reach, Store.resolve]
        cases store.binding? id with
        | none => exact .throw _ _
        | some e => exact induction.induction.expr e both
      · intro name both
        simp only [Settings.links, Settings.reach, Settings.param]
        cases settings.params.bind (·.lookup name) with
        | none => exact .throw _ _
        | some node => exact Node.render_grows induction node both

end Grows

end SqlQuery
