import SqlQuery.Operator
import SqlQuery.Path
import SqlQuery.Schema
import SqlQuery.Value

/-!
Queries: expressions over the columns of relations, and the relations themselves. The parts of
both are structures over the type `ρ` of relations and the type `ε` of expressions, which the two
inductive types then tie together.
-/

namespace SqlQuery

/-- Tells the relations of a query apart; a copy of a relation keeps it. The numbers are taken to
stay below `2 ^ 64`, where counting would start again. -/
structure RelationId where
  number : Nat
  deriving DecidableEq, Repr

structure PlaceholderId where
  number : Nat
  deriving DecidableEq, Repr

/-! Parts of expressions. -/

structure ColumnOf (ρ : Type) where
  source : ρ
  name : String

/-- `WHEN condition THEN result` -/
structure BranchOf (ε : Type) where
  condition : ε
  result : ε

/-- `CASE branches ELSE otherwise END` -/
structure CaseOf (ε : Type) where
  branches : List (BranchOf ε)
  otherwise : Option ε

/-! Relations. -/

structure Table where
  id : RelationId
  path : Path
  schema : Option Schema
  deriving DecidableEq, Repr

structure AliasOf (ρ : Type) where
  id : RelationId
  source : ρ
  name : String

/-- A join; until its columns are selected it has those of all its sources. -/
structure JoinOf (ρ ε : Type) where
  id : RelationId
  sources : List ρ
  kind : JoinKind
  on : List ε
  columns : Option (List ε)

structure GroupingOf (ρ ε : Type) where
  id : RelationId
  table : ρ
  keys : List ε
  values : List ε
  having : List ε

structure SetOperationOf (ρ : Type) where
  id : RelationId
  operator : SetOperator
  left : ρ
  right : ρ

structure SelectOf (ρ ε : Type) where
  id : RelationId
  table : Option ρ
  columns : Option (List ε) := none
  filters : List ε := []
  orderBy : List ε := []
  groupBy : List ε := []
  having : List ε := []
  limit : Option UInt64 := none
  distinct : Bool := false

/-- A relation that is defined in the WITH clause, under its own name or a generated one. -/
structure CteOf (ρ : Type) where
  id : RelationId
  source : ρ
  name : Option String
  params : Option (List String)

/-- A relation that is supplied when the query is written out. -/
structure TableParam where
  id : RelationId
  name : String
  deriving DecidableEq, Repr

mutual

inductive Expr where
  | value (v : Value)
  /-- SQL text taken as it is. -/
  | code (sql : String)
  | column (c : ColumnOf Relation)
  /-- A name that stands for a column once it is bound to one. -/
  | placeholder (id : PlaceholderId) (name : String)
  | aliased (e : Expr) (name : String)
  /-- The texts of all items after one another; NULL shows as a text. -/
  | concat (items : List Expr) (separator : Option String)
  | count (argument : Option Expr) (distinct : Bool)
  | call (function : String) (arguments : List Expr)
  | case (c : CaseOf Expr)
  | isDistinctFrom (left right : Expr)
  | binary (operator : BinaryOperator) (arguments : List Expr)
  | negate (e : Expr)
  | isIn (e : Expr) (list : List Expr)
  | cast (e : Expr) (type : SemanticType)
  | random
  | currentTimestamp
  | param (name : String)
  | subquery (r : Relation)

inductive Relation where
  | table (t : Table)
  | aliased (a : AliasOf Relation)
  | join (j : JoinOf Relation Expr)
  | grouping (g : GroupingOf Relation Expr)
  | setOperation (o : SetOperationOf Relation)
  | select (s : SelectOf Relation Expr)
  | cte (c : CteOf Relation)
  | param (p : TableParam)

end

abbrev Column := ColumnOf Relation

abbrev Branch := BranchOf Expr

abbrev Case := CaseOf Expr

abbrev Alias := AliasOf Relation

abbrev Join := JoinOf Relation Expr

abbrev Grouping := GroupingOf Relation Expr

abbrev SetOperation := SetOperationOf Relation

abbrev Select := SelectOf Relation Expr

abbrev Cte := CteOf Relation

instance : Inhabited Expr := ⟨.random⟩

instance : Inhabited Relation := ⟨.param ⟨⟨0⟩, ""⟩⟩

namespace Expr

def isNull : Expr → Bool
  | value .null => true
  | _ => false

/-- The expressions directly under an expression. The relation of a column and an embedded query
are not among them. -/
def children : Expr → List Expr
  | value _ => []
  | code _ => []
  | column _ => []
  | placeholder _ _ => []
  | aliased e _ => [e]
  | concat items _ => items
  | count argument _ => argument.toList
  | call _ arguments => arguments
  | case c => c.branches.flatMap (fun b => [b.condition, b.result]) ++ c.otherwise.toList
  | isDistinctFrom left right => [left, right]
  | binary _ arguments => arguments
  | negate e => [e]
  | isIn e list => e :: list
  | cast e _ => [e]
  | random => []
  | currentTimestamp => []
  | param _ => []
  | subquery _ => []

end Expr

def GroupingOf.outputs (g : GroupingOf ρ ε) : List ε :=
  g.keys ++ g.values

namespace Relation

def id : Relation → RelationId
  | table t => t.id
  | aliased a => a.id
  | join j => j.id
  | grouping g => g.id
  | setOperation o => o.id
  | select s => s.id
  | cte c => c.id
  | param p => p.id

def label : Relation → String
  | table t => t.path.text
  | aliased a => a.name
  | join _ => "<join>"
  | grouping _ => "<group by>"
  | setOperation o => "<" ++ o.operator.keyword ++ ">"
  | select _ => "<select>"
  | cte c => c.name.getD "<cte>"
  | param p => "<param " ++ p.name ++ ">"

/-- The relation that bare names bind to: an alias and a CTE stand for what they name. -/
def resolutionSource : Relation → Relation
  | aliased a => a.source
  | cte c => c.source
  | r => r

/-- Whether a relation is a query by itself, and not only the name of one. -/
def isQuery : Relation → Bool
  | table _ => false
  | aliased _ => false
  | cte _ => false
  | param _ => false
  | _ => true

end Relation

def AliasOf.covers (a : Alias) (relation : RelationId) : Bool :=
  a.id == relation || a.source.id == relation

end SqlQuery
