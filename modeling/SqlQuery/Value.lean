import SqlQuery.Binary
import SqlQuery.Calendar
import SqlQuery.SemanticType

/-!
Literal values: what stands in a query as a constant, in the rows of an insert, and in the cells
that a database answers with.
-/

namespace SqlQuery

inductive Value where
  | null
  | bool (b : Bool)
  | int (n : Int64)
  | float (x : Binary64)
  | text (s : String)
  | timestamp (t : Timestamp)
  | bytes (b : List UInt8)
  deriving DecidableEq, Repr

abbrev Row := List Value

namespace Value

def literalType : Value → LiteralType
  | null => .null
  | bool _ => .bool
  | int _ => .int
  | float _ => .float
  | text _ => .text
  | timestamp _ => .timestamp
  | bytes _ => .bytes

def isNull : Value → Bool
  | null => true
  | _ => false

def text? : Value → Option String
  | text s => some s
  | _ => none

def int? : Value → Option Int64
  | int n => some n
  | _ => none

end Value

end SqlQuery
