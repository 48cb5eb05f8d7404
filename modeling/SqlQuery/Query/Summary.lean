import SqlQuery.Query.Statement

/-!
Short names of what a node is: the kind of an expression with the detail that tells it from others
of the kind, and the kinds of relations and statements.
-/

namespace SqlQuery

def Expr.summary : Expr → String
  | .value v => "Value:" ++ v.literalType.name
  | .code sql => "Code:" ++ sql
  | .column c => "Column:" ++ c.name
  | .placeholder _ name => "Unresolved:" ++ name
  | .aliased _ name => "Alias:" ++ name
  | .concat items _ => "Concat:" ++ toString items.length
  | .count _ distinct => "Count:" ++ (if distinct then "true" else "false")
  | .call name _ => "Func:" ++ name
  | .case c => "Case:" ++ toString c.branches.length
  | .isDistinctFrom _ _ => "IsDistinctFrom:"
  | .binary operator _ => "BinOp:" ++ operator.symbol
  | .negate _ => "UnaryOp:-"
  | .isIn _ list => "In:" ++ toString list.length
  | .cast _ type => "Cast:" ++ type.describe
  | .random => "Random:"
  | .currentTimestamp => "CurrentTimestamp:"
  | .param name => "Param:" ++ name
  | .subquery r => "Subquery:" ++ r.label

def Relation.kind : Relation → String
  | .table _ => "Path"
  | .aliased _ => "Alias"
  | .join _ => "Join"
  | .grouping _ => "GroupBy"
  | .setOperation _ => "Op"
  | .select _ => "Select"
  | .cte _ => "Cte"
  | .param _ => "Param"

def Statement.kind : Statement → String
  | .create _ => "Create"
  | .drop _ => "Drop"
  | .truncate _ => "Truncate"
  | .insert _ => "Insert"
  | .commit => "Commit"
  | .explain _ => "Explain"

end SqlQuery
