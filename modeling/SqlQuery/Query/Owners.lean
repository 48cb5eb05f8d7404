import SqlQuery.Query.Statement

/-!
The relations that own the columns of a node, one for each column that is written out, those of
embedded queries included. The relation itself is not written out with its column.
-/

namespace SqlQuery

mutual

def Expr.owners : Expr → List RelationId
  | .column ⟨source, _⟩ => [source.id]
  | .aliased e _ => e.owners
  | .concat items _ => Expr.ownersOfAll items
  | .count (some e) _ => e.owners
  | .call _ arguments => Expr.ownersOfAll arguments
  | .case ⟨branches, none⟩ => Expr.ownersOfBranches branches
  | .case ⟨branches, some e⟩ => Expr.ownersOfBranches branches ++ e.owners
  | .isDistinctFrom left right => left.owners ++ right.owners
  | .binary _ arguments => Expr.ownersOfAll arguments
  | .negate e => e.owners
  | .isIn e list => e.owners ++ Expr.ownersOfAll list
  | .cast e _ => e.owners
  | .subquery r => r.owners
  | _ => []

def Expr.ownersOfAll : List Expr → List RelationId
  | [] => []
  | e :: rest => e.owners ++ Expr.ownersOfAll rest

def Expr.ownersOfOptional : Option (List Expr) → List RelationId
  | none => []
  | some es => Expr.ownersOfAll es

def Expr.ownersOfBranches : List (BranchOf Expr) → List RelationId
  | [] => []
  | ⟨condition, result⟩ :: rest =>
      condition.owners ++ result.owners ++ Expr.ownersOfBranches rest

def Relation.owners : Relation → List RelationId
  | .table _ => []
  | .aliased ⟨_, source, _⟩ => source.owners
  | .join ⟨_, sources, _, on, columns⟩ =>
      Relation.ownersOfAll sources ++ Expr.ownersOfAll on ++ Expr.ownersOfOptional columns
  | .grouping ⟨_, table, keys, values, having⟩ =>
      table.owners ++ Expr.ownersOfAll keys ++ Expr.ownersOfAll values ++ Expr.ownersOfAll having
  | .setOperation ⟨_, _, left, right⟩ => left.owners ++ right.owners
  | .select ⟨_, table, columns, filters, orderBy, groupBy, having, _, _⟩ =>
      Relation.ownersOfOptional table ++ Expr.ownersOfOptional columns ++
        Expr.ownersOfAll filters ++ Expr.ownersOfAll orderBy ++ Expr.ownersOfAll groupBy ++
        Expr.ownersOfAll having
  | .cte ⟨_, source, _, _⟩ => source.owners
  | .param _ => []

def Relation.ownersOfAll : List Relation → List RelationId
  | [] => []
  | r :: rest => r.owners ++ Relation.ownersOfAll rest

def Relation.ownersOfOptional : Option Relation → List RelationId
  | none => []
  | some r => r.owners

end

def Node.owners : Node → List RelationId
  | .expr e => e.owners
  | .relation r => r.owners
  | .statement (.create s) => Relation.ownersOfOptional s.source
  | .statement (.insert ⟨_, .query r, _⟩) => r.owners
  | .statement (.explain r) => r.owners
  | .statement _ => []

end SqlQuery
