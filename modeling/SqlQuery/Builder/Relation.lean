import SqlQuery.Builder.Basic

/-!
Relations from relations. Every step first binds the placeholders among its arguments to columns
of the relation it is applied to; a step all of whose arguments are skipped gives back its
receiver where the step adds nothing without them.
-/

namespace SqlQuery

structure Clauses where
  columns : Option (List Expr) := none
  filters : List Expr := []
  orderBy : List Expr := []
  limit : Option UInt64 := none
  distinct : Option Bool := none

def Clauses.wrap (id : RelationId) (r : Relation) (clauses : Clauses) : Select :=
  { id
    table := some r
    columns := clauses.columns
    filters := clauses.filters
    orderBy := clauses.orderBy
    limit := clauses.limit
    distinct := clauses.distinct.getD false }

namespace SelectOf

/-- Whether clauses can be added to a SELECT instead of going around it: it has no LIMIT and no
GROUP BY, sets none of the clauses itself, and need not stop being distinct. -/
def absorbs (s : Select) (clauses : Clauses) : Bool :=
  !(clauses.distinct == some false && s.distinct) &&
    s.limit.isNone && s.groupBy.isEmpty &&
    !(clauses.columns.isSome && s.columns.isSome) &&
    (clauses.orderBy.isEmpty || s.orderBy.isEmpty)

/-- A SELECT with more clauses; its filters are kept, and the new ones come after them. -/
def absorb (s : Select) (id : RelationId) (clauses : Clauses) : Select :=
  { s with
    id
    columns := clauses.columns.or s.columns
    filters := s.filters ++ clauses.filters
    orderBy := if clauses.orderBy.isEmpty then s.orderBy else clauses.orderBy
    limit := clauses.limit.or s.limit
    distinct := clauses.distinct.getD s.distinct }

end SelectOf

/-- Lays clauses over a relation, inside a SELECT that absorbs them or around the relation. -/
def Relation.layer (id : RelationId) (r : Relation) (clauses : Clauses) : Relation :=
  match r with
  | .select s => .select (if s.absorbs clauses then s.absorb id clauses else clauses.wrap id r)
  | _ => .select (clauses.wrap id r)

namespace Build

def layer (r : Relation) (clauses : Clauses) : Build Relation := do
  return r.layer (← newRelationId) clauses

/-- Selects columns; without any, all columns stay. -/
def selectWith (distinct : Option Bool) (r : Relation) (columns : Arguments) :
    Build Relation := do
  let columns := columns.present
  resolve r.resolutionSource columns
  layer r { columns := if columns.isEmpty then none else some columns, distinct }

def select : Relation → Arguments → Build Relation :=
  selectWith none

def selectDistinct : Relation → Arguments → Build Relation :=
  selectWith (some true)

/-- Selects without removing duplicates, around a relation that does remove them. -/
def selectAll : Relation → Arguments → Build Relation :=
  selectWith (some false)

def filter (r : Relation) (predicates : Arguments) : Build Relation :=
  match predicates.present with
  | [] => return r
  | filters => do
      resolve r.resolutionSource filters
      layer r { filters }

def orderBy (r : Relation) (exprs : Arguments) : Build Relation :=
  match exprs.present with
  | [] => return r
  | orderBy => do
      resolve r.resolutionSource orderBy
      layer r { orderBy }

def limit (r : Relation) (limit : UInt64) : Build Relation :=
  layer r { limit := some limit }

def selectStar (source : Option Relation) : Build Select := do
  return { id := ← newRelationId, table := source }

def columnsOnly (columns : List Expr) : Build Select := do
  return { ← selectStar none with columns := some columns }

def countRows (r : Relation) : Build Select := do
  return { ← selectStar (some r) with columns := some [.count none false] }

def join (kind : JoinKind) (sources : List Relation) : Build Join := do
  return { id := ← newRelationId, sources, kind, on := [], columns := none }

/-- Adds predicates to a join, with the columns of all its sources in reach. -/
def on (j : Join) (predicates : Arguments) : Build Join :=
  match predicates.present with
  | [] => return j
  | on => do
      resolve (.join j) on
      return { j with id := ← newRelationId, on := j.on ++ on }

/-- Selects the columns of a join: its own the first time, of a query around it after that. -/
def selectFromJoin (j : Join) (columns : Arguments) : Build Relation :=
  match j.columns with
  | some _ => select (.join j) columns
  | none => do
      let columns := columns.present
      resolve (.join j) columns
      return .join { j with id := ← newRelationId, columns := some columns }

/-- Groups by at least one key or with at least one value. -/
def grouping (r : Relation) (keys values : List Expr) : Build Grouping :=
  if keys.isEmpty && values.isEmpty then
    throw .emptyGrouping
  else do
    return { id := ← newRelationId, table := r, keys, values, having := [] }

def groupBy (r : Relation) (keys values : Arguments) : Build Grouping := do
  resolve r.resolutionSource (keys.present ++ values.present)
  grouping r keys.present values.present

def having (g : Grouping) (predicates : Arguments) : Build Grouping :=
  match predicates.present with
  | [] => return g
  | having => do
      resolve g.table.resolutionSource having
      return { g with id := ← newRelationId, having := g.having ++ having }

def setOperation (operator : SetOperator) (left right : Relation) : Build SetOperation := do
  return { id := ← newRelationId, operator, left, right }

end Build

end SqlQuery
