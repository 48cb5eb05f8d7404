import SqlQuery.SemanticType

/-!
The type inferred for an expression, and when two such types agree.
-/

namespace SqlQuery

inductive ExprType where
  | semantic (type : SemanticType)
  | literal (type : LiteralType)
  | unknown
  deriving DecidableEq, Repr

namespace ExprType

def boolean : ExprType :=
  semantic .boolean

def isNull : ExprType → Bool
  | literal .null => true
  | _ => false

def isKnown : ExprType → Bool
  | unknown => false
  | semantic (.unknown _) => false
  | _ => true

def semantic? : ExprType → Option SemanticType
  | semantic type => some type
  | _ => none

/-- Equal column types agree, and so do equal literal types; a literal agrees with a column
type that accepts it, and an unknown type with everything. -/
def agrees : ExprType → ExprType → Bool
  | semantic a, semantic b => a == b
  | semantic s, literal l => s.accepts l
  | literal l, semantic s => s.accepts l
  | literal a, literal b => a == b
  | _, _ => true

def describe : ExprType → String
  | semantic type => type.describe
  | literal type => type.name
  | unknown => "unknown"

/-- The column type under which a selected expression of this type appears. -/
def columnType : ExprType → SemanticType
  | semantic type => type
  | literal .int => .integer
  | literal .text => .text
  | literal .bool => .boolean
  | literal type => .unknown type.name
  | unknown => .unknown ""

end ExprType

end SqlQuery
