import SqlQuery.Query

/-!
The nodes of an expression from the top down, found with a stack of the nodes still to visit.
-/

namespace SqlQuery

mutual

def Expr.weight : Expr → Nat
  | .value _ => 1
  | .code _ => 1
  | .column _ => 1
  | .placeholder _ _ => 1
  | .aliased e _ => e.weight + 1
  | .concat items _ => Expr.weightOfAll items + 1
  | .count none _ => 1
  | .count (some e) _ => e.weight + 1
  | .call _ arguments => Expr.weightOfAll arguments + 1
  | .case ⟨branches, none⟩ => Expr.weightOfBranches branches + 1
  | .case ⟨branches, some e⟩ => Expr.weightOfBranches branches + e.weight + 1
  | .isDistinctFrom left right => left.weight + right.weight + 1
  | .binary _ arguments => Expr.weightOfAll arguments + 1
  | .negate e => e.weight + 1
  | .isIn e list => e.weight + Expr.weightOfAll list + 1
  | .cast e _ => e.weight + 1
  | .random => 1
  | .currentTimestamp => 1
  | .param _ => 1
  | .subquery _ => 1

def Expr.weightOfAll : List Expr → Nat
  | [] => 0
  | e :: rest => e.weight + Expr.weightOfAll rest

def Expr.weightOfBranches : List (BranchOf Expr) → Nat
  | [] => 0
  | ⟨condition, result⟩ :: rest =>
      condition.weight + result.weight + Expr.weightOfBranches rest

end

namespace Expr

/-- Visits the nodes of a stack, at most as many as the first argument says: the top node, then
its children before the rest of the stack. -/
def walkStack : Nat → List Expr → List Expr
  | _, [] => []
  | 0, _ => []
  | fuel + 1, e :: stack => e :: walkStack fuel (e.children ++ stack)

/-- All nodes of an expression, each before those under it. -/
def walk (e : Expr) : List Expr :=
  walkStack e.weight [e]

end Expr

end SqlQuery
