import SqlQuery.Proofs.Render.Equations
import SqlQuery.Render.Compile

/-!
Columns as they stand in a text. Whether a column is written after an alias depends on the
aliases in scope, and of these only on the relations that they own. The columns of a query are
listed here with the owners of the aliases that the joins inside the query bring into scope, and
a column is told apart from the others when the aliases around the query change how it is written.
-/

namespace SqlQuery

/-- The relations that the aliases in scope own, for each alias; the innermost come last. -/
abbrev Scope := List (List RelationId)

def Scope.covering (scope : Scope) (owner : RelationId) : Nat :=
  scope.countP (·.contains owner)

def ScopedAlias.scope (aliases : List ScopedAlias) : Scope :=
  aliases.map ScopedAlias.owners

def Context.under (ctx : Context) (aliases : List ScopedAlias) : Context :=
  { ctx with aliases }

/-- The relations that the alias of a source of a join owns. -/
def Relation.owned : Relation → List RelationId
  | .aliased a => [a.id, a.source.id]
  | r => [r.id]

def joinScope (sources : List Relation) : Scope :=
  sources.map Relation.owned

/-- A column in a text: the relation that owns it, and the scope that the joins around it and
inside the query make. -/
structure Occurrence where
  scope : Scope
  owner : RelationId
  deriving DecidableEq

/-- Whether the aliases around a query leave a column of it as it is. They do if they own it not,
and no single alias inside the query starts to be written because it is not alone any more; a
column that two aliases inside the query own cannot be written at all. -/
def Occurrence.Undisturbed (outer : Scope) (o : Occurrence) : Prop :=
  outer.length + o.scope.length ≤ 1 ∨ outer = [] ∨ 2 ≤ o.scope.covering o.owner ∨
    (outer.covering o.owner = 0 ∧ (o.scope.length = 1 → o.scope.covering o.owner = 0))

instance (outer : Scope) (o : Occurrence) : Decidable (o.Undisturbed outer) :=
  inferInstanceAs (Decidable (_ ∨ _ ∨ _ ∨ _))

def disturbances (outer : Scope) (occurrences : List Occurrence) : Nat :=
  occurrences.countP fun o => !decide (o.Undisturbed outer)

/-- The columns behind placeholders and parameters. -/
structure Reach where
  placeholder : PlaceholderId → Scope → List Occurrence
  param : String → Scope → List Occurrence

mutual

/-- The columns that the text of an expression shows. The body of a definition in the WITH clause
is not part of the text, and so its columns are not among them. -/
def Expr.occurrences (reach : Reach) (scope : Scope) : Expr → List Occurrence
  | .value _ => []
  | .code _ => []
  | .column ⟨source, _⟩ => [⟨scope, source.id⟩]
  | .placeholder id _ => reach.placeholder id scope
  | .aliased e _ => e.occurrences reach scope
  | .concat items _ => Expr.occurrencesOfAll reach scope items
  | .count none _ => []
  | .count (some e) _ => e.occurrences reach scope
  | .call _ arguments => Expr.occurrencesOfAll reach scope arguments
  | .case ⟨branches, none⟩ => Expr.occurrencesOfBranches reach scope branches
  | .case ⟨branches, some e⟩ =>
      Expr.occurrencesOfBranches reach scope branches ++ e.occurrences reach scope
  | .isDistinctFrom left right => left.occurrences reach scope ++ right.occurrences reach scope
  | .binary _ arguments => Expr.occurrencesOfAll reach scope arguments
  | .negate e => e.occurrences reach scope
  | .isIn e list => e.occurrences reach scope ++ Expr.occurrencesOfAll reach scope list
  | .cast e _ => e.occurrences reach scope
  | .random => []
  | .currentTimestamp => []
  | .param name => reach.param name scope
  | .subquery r => r.occurrences reach scope

def Expr.occurrencesOfAll (reach : Reach) (scope : Scope) : List Expr → List Occurrence
  | [] => []
  | e :: rest => e.occurrences reach scope ++ Expr.occurrencesOfAll reach scope rest

def Expr.occurrencesOfOptional (reach : Reach) (scope : Scope) :
    Option (List Expr) → List Occurrence
  | none => []
  | some es => Expr.occurrencesOfAll reach scope es

def Expr.occurrencesOfBranches (reach : Reach) (scope : Scope) :
    List (BranchOf Expr) → List Occurrence
  | [] => []
  | ⟨condition, result⟩ :: rest =>
      condition.occurrences reach scope ++ result.occurrences reach scope ++
        Expr.occurrencesOfBranches reach scope rest

def Relation.occurrences (reach : Reach) (scope : Scope) : Relation → List Occurrence
  | .table _ => []
  | .aliased ⟨_, source, _⟩ => source.occurrences reach scope
  | .join ⟨_, sources, _, on, columns⟩ =>
      Relation.occurrencesOfAll reach (scope ++ joinScope sources) sources ++
        Expr.occurrencesOfAll reach (scope ++ joinScope sources) on ++
        Expr.occurrencesOfOptional reach (scope ++ joinScope sources) columns
  | .grouping ⟨_, table, keys, values, having⟩ =>
      let nested := table.occurrences reach scope
      Expr.occurrencesOfAll reach scope keys ++ Expr.occurrencesOfAll reach scope values ++
        Expr.occurrencesOfAll reach scope having ++
        match table with
        | .select ⟨_, source, columns, filters, orderBy, groupBy, _, limit, distinct⟩ =>
            -- A plain select that takes the grouping into itself gives up its own HAVING.
            if columns.isNone && groupBy.isEmpty && limit.isNone && !distinct then
              Relation.occurrencesOfOptional reach scope source ++
                Expr.occurrencesOfAll reach scope filters ++
                Expr.occurrencesOfAll reach scope orderBy
            else
              nested
        | _ => nested
  | .setOperation ⟨_, _, left, right⟩ =>
      left.occurrences reach scope ++ right.occurrences reach scope
  | .select ⟨_, source, columns, filters, orderBy, groupBy, having, _, _⟩ =>
      Expr.occurrencesOfOptional reach scope columns ++
        Relation.occurrencesOfOptional reach scope source ++
        Expr.occurrencesOfAll reach scope filters ++ Expr.occurrencesOfAll reach scope groupBy ++
        Expr.occurrencesOfAll reach scope having ++ Expr.occurrencesOfAll reach scope orderBy
  | .cte _ => []
  | .param ⟨_, name⟩ => reach.param name scope

def Relation.occurrencesOfAll (reach : Reach) (scope : Scope) : List Relation → List Occurrence
  | [] => []
  | r :: rest => r.occurrences reach scope ++ Relation.occurrencesOfAll reach scope rest

def Relation.occurrencesOfOptional (reach : Reach) (scope : Scope) :
    Option Relation → List Occurrence
  | none => []
  | some r => r.occurrences reach scope

end

section Equations

variable (reach : Reach) (scope : Scope)

theorem Relation.occurrences_select (s : Select) :
    (Relation.select s).occurrences reach scope =
      Expr.occurrencesOfOptional reach scope s.columns ++
        Relation.occurrencesOfOptional reach scope s.table ++
        Expr.occurrencesOfAll reach scope s.filters ++
        Expr.occurrencesOfAll reach scope s.groupBy ++
        Expr.occurrencesOfAll reach scope s.having ++
        Expr.occurrencesOfAll reach scope s.orderBy := by
  obtain ⟨id, table, columns, filters, orderBy, groupBy, having, limit, distinct⟩ := s
  rw [Relation.occurrences]

theorem Relation.occurrences_grouping_plain (id : RelationId) (s : Select)
    (keys values having : List Expr) (plain : s.isPlain = true) :
    (Relation.grouping ⟨id, .select s, keys, values, having⟩).occurrences reach scope =
      Expr.occurrencesOfAll reach scope keys ++ Expr.occurrencesOfAll reach scope values ++
        Expr.occurrencesOfAll reach scope having ++
        (Relation.occurrencesOfOptional reach scope s.table ++
          Expr.occurrencesOfAll reach scope s.filters ++
          Expr.occurrencesOfAll reach scope s.orderBy) := by
  obtain ⟨_, table, columns, filters, orderBy, groupBy, _, limit, distinct⟩ := s
  change (columns.isNone && groupBy.isEmpty && limit.isNone && !distinct) = true at plain
  rw [Relation.occurrences, if_pos plain]

theorem Relation.occurrences_grouping_nested (id : RelationId) (table : Relation)
    (keys values having : List Expr) (nested : ∀ s, table = .select s → s.isPlain = false) :
    (Relation.grouping ⟨id, table, keys, values, having⟩).occurrences reach scope =
      Expr.occurrencesOfAll reach scope keys ++ Expr.occurrencesOfAll reach scope values ++
        Expr.occurrencesOfAll reach scope having ++ table.occurrences reach scope := by
  cases table with
  | select s =>
      obtain ⟨_, table, columns, filters, orderBy, groupBy, _, limit, distinct⟩ := s
      have notPlain :
          ¬ (columns.isNone && groupBy.isEmpty && limit.isNone && !distinct) = true :=
        Bool.eq_false_iff.mp (nested _ rfl)
      rw [Relation.occurrences, if_neg notPlain]
  | _ => rfl

theorem Relation.occurrences_join (id : RelationId) (sources : List Relation) (kind : JoinKind)
    (on : List Expr) (columns : Option (List Expr)) :
    (Relation.join ⟨id, sources, kind, on, columns⟩).occurrences reach scope =
      Relation.occurrencesOfAll reach (scope ++ joinScope sources) sources ++
        Expr.occurrencesOfAll reach (scope ++ joinScope sources) on ++
        Expr.occurrencesOfOptional reach (scope ++ joinScope sources) columns := by
  rw [Relation.occurrences]

end Equations

def Node.occurrences (reach : Reach) (scope : Scope) : Node → List Occurrence
  | .expr e => e.occurrences reach scope
  | .relation r => r.occurrences reach scope
  | .statement (.create s) => Relation.occurrencesOfOptional reach scope s.source
  | .statement (.insert ⟨_, .query r, _⟩) => r.occurrences reach scope
  | .statement (.explain r) => r.occurrences reach scope
  | .statement _ => []

def Settings.reach (store : Store) (settings : Settings) : Nat → Reach
  | 0 => { placeholder := fun _ _ => [], param := fun _ _ => [] }
  | depth + 1 =>
    { placeholder := fun id scope =>
        match store.binding? id with
        | some e => e.occurrences (reach store settings depth) scope
        | none => []
      param := fun name scope =>
        match settings.params.bind (·.lookup name) with
        | some node => node.occurrences (reach store settings depth) scope
        | none => [] }

end SqlQuery
