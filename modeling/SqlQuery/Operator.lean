/-!
The operators of the query language: on values, on whole relations, and between joined relations.
-/

namespace SqlQuery

inductive BinaryOperator where
  | add
  | sub
  | gt
  | ge
  | eq
  | lt
  | le
  | is
  | like
  | and
  | or
  deriving DecidableEq, Repr

namespace BinaryOperator

def symbol : BinaryOperator → String
  | add => "+"
  | sub => "-"
  | gt => ">"
  | ge => ">="
  | eq => "="
  | lt => "<"
  | le => "<="
  | is => "IS"
  | like => "LIKE"
  | and => "AND"
  | or => "OR"

/-- Whether a result of the operator has the type of its operands. -/
def isArithmetic : BinaryOperator → Bool
  | add => true
  | sub => true
  | _ => false

def all : List BinaryOperator :=
  [add, sub, gt, ge, eq, lt, le, is, like, and, or]

def ofSymbol? (symbol : String) : Option BinaryOperator :=
  all.find? (·.symbol == symbol)

end BinaryOperator

inductive SetOperator where
  | union
  | unionAll
  | except
  | intersect
  deriving DecidableEq, Repr

namespace SetOperator

def keyword : SetOperator → String
  | union => "UNION"
  | unionAll => "UNION ALL"
  | except => "EXCEPT"
  | intersect => "INTERSECT"

def all : List SetOperator :=
  [union, unionAll, except, intersect]

def ofKeyword? (keyword : String) : Option SetOperator :=
  all.find? (·.keyword == keyword)

end SetOperator

/-- Which rows without a partner a join keeps. -/
inductive JoinKind where
  | inner
  | left
  | right
  | fullOuter
  deriving DecidableEq, Repr

namespace JoinKind

def separator : JoinKind → String
  | inner => " JOIN "
  | left => " LEFT JOIN "
  | right => " RIGHT JOIN "
  | fullOuter => " FULL OUTER JOIN "

end JoinKind

end SqlQuery
