import SqlQuery.Query.Statement
import SqlQuery.Store

/-!
When two nodes are the same. Identities take no part: relations are compared by what they are
made of, columns by name alone, and placeholders by their name and what they are bound to.
-/

namespace SqlQuery

abbrev Comparison := PlaceholderId → PlaceholderId → Bool

def Table.same (a b : Table) : Bool :=
  a.path == b.path && a.schema == b.schema

mutual

def Expr.sameIn (env : Comparison) : Expr → Expr → Bool
  | .value a, .value b => a == b
  | .code a, .code b => a == b
  | .column a, .column b => a.name == b.name
  | .placeholder a nameA, .placeholder b nameB => nameA == nameB && env a b
  | .aliased a nameA, .aliased b nameB => a.sameIn env b && nameA == nameB
  | .concat a sepA, .concat b sepB => Expr.sameAll env a b && sepA == sepB
  | .count a distinctA, .count b distinctB =>
      (match a, b with
        | none, none => true
        | some a, some b => a.sameIn env b
        | _, _ => false) && distinctA == distinctB
  | .call nameA a, .call nameB b => nameA == nameB && Expr.sameAll env a b
  | .case ⟨branchesA, a⟩, .case ⟨branchesB, b⟩ =>
      Expr.sameBranches env branchesA branchesB &&
        match a, b with
        | none, none => true
        | some a, some b => a.sameIn env b
        | _, _ => false
  | .isDistinctFrom leftA rightA, .isDistinctFrom leftB rightB =>
      leftA.sameIn env leftB && rightA.sameIn env rightB
  | .binary opA a, .binary opB b => opA == opB && Expr.sameAll env a b
  | .negate a, .negate b => a.sameIn env b
  | .isIn a listA, .isIn b listB => a.sameIn env b && Expr.sameAll env listA listB
  | .cast a typeA, .cast b typeB => a.sameIn env b && typeA == typeB
  | .random, .random => true
  | .currentTimestamp, .currentTimestamp => true
  | .param a, .param b => a == b
  | .subquery a, .subquery b => a.sameIn env b
  | _, _ => false

def Expr.sameAll (env : Comparison) : List Expr → List Expr → Bool
  | [], [] => true
  | a :: restA, b :: restB => a.sameIn env b && Expr.sameAll env restA restB
  | _, _ => false

def Expr.sameBranches (env : Comparison) : List (BranchOf Expr) → List (BranchOf Expr) → Bool
  | [], [] => true
  | ⟨conditionA, resultA⟩ :: restA, ⟨conditionB, resultB⟩ :: restB =>
      conditionA.sameIn env conditionB && resultA.sameIn env resultB &&
        Expr.sameBranches env restA restB
  | _, _ => false

def Relation.sameIn (env : Comparison) : Relation → Relation → Bool
  | .table a, .table b => a.same b
  | .aliased ⟨_, a, nameA⟩, .aliased ⟨_, b, nameB⟩ => a.sameIn env b && nameA == nameB
  | .join ⟨_, sourcesA, kindA, onA, columnsA⟩, .join ⟨_, sourcesB, kindB, onB, columnsB⟩ =>
      Relation.sameAll env sourcesA sourcesB && kindA == kindB && Expr.sameAll env onA onB &&
        match columnsA, columnsB with
        | none, none => true
        | some a, some b => Expr.sameAll env a b
        | _, _ => false
  | .grouping ⟨_, a, keysA, valuesA, havingA⟩, .grouping ⟨_, b, keysB, valuesB, havingB⟩ =>
      a.sameIn env b && Expr.sameAll env keysA keysB && Expr.sameAll env valuesA valuesB &&
        Expr.sameAll env havingA havingB
  | .setOperation ⟨_, opA, leftA, rightA⟩, .setOperation ⟨_, opB, leftB, rightB⟩ =>
      opA == opB && leftA.sameIn env leftB && rightA.sameIn env rightB
  | .select ⟨_, a, columnsA, filtersA, orderA, groupA, havingA, limitA, distinctA⟩,
    .select ⟨_, b, columnsB, filtersB, orderB, groupB, havingB, limitB, distinctB⟩ =>
      (match a, b with
        | none, none => true
        | some a, some b => a.sameIn env b
        | _, _ => false) &&
      (match columnsA, columnsB with
        | none, none => true
        | some a, some b => Expr.sameAll env a b
        | _, _ => false) &&
      Expr.sameAll env filtersA filtersB && Expr.sameAll env orderA orderB &&
      Expr.sameAll env groupA groupB && Expr.sameAll env havingA havingB &&
      limitA == limitB && distinctA == distinctB
  | .cte ⟨_, a, nameA, paramsA⟩, .cte ⟨_, b, nameB, paramsB⟩ =>
      a.sameIn env b && nameA == nameB && paramsA == paramsB
  | .param a, .param b => a.name == b.name
  | _, _ => false

def Relation.sameAll (env : Comparison) : List Relation → List Relation → Bool
  | [], [] => true
  | a :: restA, b :: restB => a.sameIn env b && Relation.sameAll env restA restB
  | _, _ => false

end

def Statement.sameIn (env : Comparison) : Statement → Statement → Bool
  | .create a, .create b =>
      a.table.same b.table && a.ifNotExists == b.ifNotExists && a.primaryKeys == b.primaryKeys &&
        match a.source, b.source with
        | none, none => true
        | some a, some b => a.sameIn env b
        | _, _ => false
  | .drop a, .drop b => a.table.same b.table && a.ifExists == b.ifExists
  | .truncate a, .truncate b => a.same b
  | .insert a, .insert b =>
      a.table.same b.table && a.columns == b.columns &&
        match a.source, b.source with
        | .rows a, .rows b => a == b
        | .query a, .query b => a.sameIn env b
        | _, _ => false
  | .commit, .commit => true
  | .explain a, .explain b => a.sameIn env b
  | _, _ => false

def Node.sameIn (env : Comparison) : Node → Node → Bool
  | .expr a, .expr b => a.sameIn env b
  | .relation a, .relation b => a.sameIn env b
  | .statement a, .statement b => a.sameIn env b
  | _, _ => false

/-- The comparison that follows at most the given number of bindings on either side. A placeholder
is the same as itself, whatever it is bound to. -/
def Store.comparison (store : Store) : Nat → Comparison
  | 0, a, b => a == b || ((store.binding? a).isNone && (store.binding? b).isNone)
  | links + 1, a, b =>
      a == b ||
        match store.binding? a, store.binding? b with
        | none, none => true
        | some a, some b => a.sameIn (store.comparison links) b
        | _, _ => false

def Node.same (store : Store) (a b : Node) : Bool :=
  a.sameIn (store.comparison store.depth) b

def Node.countDistinct (store : Store) (nodes : List Node) : Nat :=
  (nodes.foldl (fun seen node =>
    if seen.any (·.same store node) then seen else node :: seen) []).length

end SqlQuery
