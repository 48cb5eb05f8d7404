/-!
What a column holds, whatever engine stores it, and the broad classes that the type names of an
engine fall into.
-/

namespace SqlQuery

/-- Digits of a second that a timestamp keeps, and what happens to the others. -/
structure Temporal where
  precision : UInt32
  rounds : Bool
  deriving DecidableEq, Repr

inductive UuidStorage where
  | native
  | text
  deriving DecidableEq, Repr

inductive SemanticType where
  | integer
  | float (precision : UInt32)
  | decimal (precision : UInt32)
  | text
  | boolean
  | timestamp (temporal : Temporal)
  | timestampTz (temporal : Temporal)
  | uuid (storage : UuidStorage)
  | unknown (name : String)
  deriving DecidableEq, Repr

inductive TypeClass where
  | timestamp
  | timestampTz
  | float
  | decimal
  | integer
  | text
  | nativeUuid
  | boolean
  deriving DecidableEq, Repr

def TypeClass.name : TypeClass → String
  | .timestamp => "Timestamp"
  | .timestampTz => "TimestampTz"
  | .float => "Float"
  | .decimal => "Decimal"
  | .integer => "Integer"
  | .text => "Text"
  | .nativeUuid => "NativeUuid"
  | .boolean => "Boolean"

inductive LiteralType where
  | int
  | float
  | text
  | bool
  | timestamp
  | bytes
  | null
  deriving DecidableEq, Repr

def LiteralType.name : LiteralType → String
  | .int => "Int"
  | .float => "Float"
  | .text => "Text"
  | .bool => "Bool"
  | .timestamp => "Timestamp"
  | .bytes => "Bytes"
  | .null => "Null"

namespace SemanticType

def temporal? : SemanticType → Option Temporal
  | timestamp t => some t
  | timestampTz t => some t
  | _ => none

/-- Digits after the decimal point, for the types that have some. -/
def fractional? : SemanticType → Option UInt32
  | float p => some p
  | decimal p => some p
  | _ => none

def isNumeric : SemanticType → Bool
  | integer => true
  | float _ => true
  | decimal _ => true
  | _ => false

def accepts : SemanticType → LiteralType → Bool
  | integer, .int => true
  | float _, .float => true
  | decimal _, .float => true
  | text, .text => true
  | uuid .text, .text => true
  | boolean, .bool => true
  | timestamp _, .timestamp => true
  | _, _ => false

def describeTemporal (name : String) (temporal : Temporal) : String :=
  name ++ "(precision=" ++ toString temporal.precision.toNat ++
    ", rounds=" ++ (if temporal.rounds then "true" else "false") ++ ")"

def describe : SemanticType → String
  | integer => "Integer"
  | float p => "Float(precision=" ++ toString p.toNat ++ ")"
  | decimal p => "Decimal(precision=" ++ toString p.toNat ++ ")"
  | text => "Text"
  | boolean => "Boolean"
  | timestamp t => describeTemporal "Timestamp" t
  | timestampTz t => describeTemporal "TimestampTZ" t
  | uuid .native => "Native_UUID"
  | uuid .text => "String_UUID"
  | unknown name => "Unknown(" ++ name ++ ")"

/-- The name that most engines give the type in a table definition. -/
def baseName : SemanticType → String
  | integer => "INT"
  | float _ => "FLOAT"
  | decimal p => "DECIMAL(38, " ++ toString p.toNat ++ ")"
  | text => "VARCHAR"
  | uuid .text => "VARCHAR"
  | boolean => "BOOLEAN"
  | timestamp _ => "TIMESTAMP"
  | timestampTz t => "TIMESTAMP(" ++ toString (min t.precision.toNat 6) ++ ")"
  | uuid .native => "UUID"
  | unknown name => name

end SemanticType

end SqlQuery
