import SqlQuery.Error
import SqlQuery.Text.Blank
import SqlQuery.Value

/-!
Dialects: every decision about the spelling of SQL that differs between databases, the reading of
a database's own type names, and the expressions that bring its values into one common form.

A dialect is a record of rules. Most of them have a default that holds for most databases.
-/

namespace SqlQuery

/-! Defaults. -/

/-- The clause that leaves out some rows at the start and stops after some; an offset of zero is
not written. -/
def limitClause (offset limit : Option UInt64) : String :=
  match limit, offset.filter (· != 0) with
  | some limit, some offset =>
      "LIMIT " ++ toString limit.toNat ++ " OFFSET " ++ toString offset.toNat
  | some limit, none => "LIMIT " ++ toString limit.toNat
  | none, some offset => "OFFSET " ++ toString offset.toNat
  | none, none => ""

def hexByte (byte : UInt8) : String :=
  let digit (n : Nat) : Char :=
    if n < 10 then .ofNat ('0'.toNat + n) else .ofNat ('A'.toNat + (n - 10))
  .ofList [digit (byte.toNat / 16), digit (byte.toNat % 16)]

def hexBytes (bytes : List UInt8) : String :=
  "X'" ++ String.join (bytes.map hexByte) ++ "'"

/-- Rounds to 53 significant bits, a tie to the even neighbour. -/
def roundTo53Bits (n : Nat) : Nat :=
  let unit := Nat.pow 2 (n.log2 - 52)
  let below := n / unit
  let rest := n % unit
  if 2 * rest < unit ∨ (2 * rest = unit ∧ below % 2 = 0) then below * unit
  else (below + 1) * unit

/-- Decimal digits that a number of binary digits holds: the whole part of the 64-bit product of
that number with the 64-bit `log10 2`, which is `0x134413509F79FF / 2 ^ 54`. -/
def bitsToDigits (bits : UInt32) : UInt32 :=
  .ofNat (roundTo53Bits (bits.toNat * 0x134413509F79FF) / 0x40000000000000)

namespace Dialect

def quoted (mark : Char) (name : String) : String :=
  mark.toString ++ name ++ mark.toString

/-- A text between single quotes; a single quote inside it is written twice. -/
def textLiteral (text : String) : String :=
  "'" ++ .ofList (text.toList.flatMap fun c => if c == '\x27' then ['\x27', '\x27'] else [c]) ++ "'"

def literalText (timestamp : Timestamp → String) (bytes : List UInt8 → String) : Value → String
  | .null => "NULL"
  | .bool true => "TRUE"
  | .bool false => "FALSE"
  | .int n => toString n.toInt
  | .float x => x.literal
  | .text s => textLiteral s
  | .timestamp t => timestamp t
  | .bytes b => bytes b

def rowText (literal : Value → String) (row : Row) : String :=
  "(" ++ ", ".intercalate (row.map literal) ++ ")"

def rowsText (literal : Value → String) (rows : List Row) : String :=
  "VALUES " ++ ", ".intercalate (rows.map (rowText literal))

end Dialect

structure ReportedPrecision where
  datetime : Option UInt32 := none
  numeric : Option UInt32 := none
  scale : Option UInt32 := none

/-- The type of a class of native types at the reported precisions. Timestamps have six digits by
default, decimals none, and floats 24 bits. -/
def TypeClass.toType (rounds : Bool) (digits : UInt32 → UInt32) (reported : ReportedPrecision) :
    TypeClass → SemanticType
  | .timestamp => .timestamp ⟨reported.datetime.getD 6, rounds⟩
  | .timestampTz => .timestampTz ⟨reported.datetime.getD 6, rounds⟩
  | .float => .float (digits (reported.numeric.getD 24))
  | .decimal => .decimal (reported.scale.getD 0)
  | .integer => .integer
  | .text => .text
  | .nativeUuid => .uuid .native
  | .boolean => .boolean

structure Dialect where
  name : String
  identifierQuote : Char := '"'
  quote : String → String := Dialect.quoted identifierQuote
  /-- Turns an expression into text. -/
  toText : String → String
  typeName : SemanticType → String := SemanticType.baseName
  offsetLimit : Option UInt64 → Option UInt64 → String := limitClause
  concat : List String → String := fun items => "concat(" ++ ", ".intercalate items ++ ")"
  random : String := "random()"
  currentTimestamp : String := "current_timestamp()"
  explain : String → String := fun query => "EXPLAIN " ++ query
  isDistinctFrom : String → String → String := fun a b => a ++ " is distinct from " ++ b
  timestampLiteral : Timestamp → String := fun t => "'" ++ t.text ++ "'"
  bytesLiteral : List UInt8 → String := hexBytes
  literal : Value → String := Dialect.literalText timestampLiteral bytesLiteral
  constantRows : List Row → String := Dialect.rowsText literal
  /-- The class of a native type, by its name without blanks around it. -/
  typeClass : String → Option TypeClass := fun _ => none
  /-- Decimal digits of a float that is reported with a number of bits. -/
  floatDigits : UInt32 → UInt32 := bitsToDigits
  /-- Whether a timestamp that loses digits is rounded. -/
  rounds : Bool := false
  /-- The scale of a native decimal type that names one, if the name is of that form. -/
  decimalScale : String → Option (Except Text.NumberFault UInt32) := fun _ => none
  supportsPrimaryKey : Bool := false
  supportsIndexes : Bool := false
  /-- The table to select from when a query names none, if one is needed. -/
  placeholderTable : Option String := none
  setTimezoneToUtc : String
  /-- The MD5 sum of a text expression as a whole number. -/
  md5AsInt : String → String
  normalizeTimestamp : String → Temporal → String
  /-- A number with exactly the given digits after the point. -/
  normalizeNumber : String → UInt32 → String
  normalizeBoolean : String → String := toText

namespace Dialect

def normalizeUuid (d : Dialect) (value : String) : UuidStorage → String
  | .text => "TRIM(" ++ value ++ ")"
  | .native => d.toText value

def normalize (d : Dialect) (value : String) : SemanticType → String
  | .timestamp t => d.normalizeTimestamp value t
  | .timestampTz t => d.normalizeTimestamp value t
  | .float precision => d.normalizeNumber value precision
  | .decimal precision => d.normalizeNumber value precision
  | .uuid storage => d.normalizeUuid value storage
  | .boolean => d.normalizeBoolean value
  | .integer => d.toText value
  | .text => d.toText value
  | .unknown _ => d.toText value

/-- The type of a native type name by its class alone; a name without a class is kept. -/
def typeByClass (d : Dialect) (native : String) (reported : ReportedPrecision) : SemanticType :=
  match d.typeClass (Text.trim native) with
  | some typeClass => typeClass.toType d.rounds d.floatDigits reported
  | none => .unknown native

def parseType (d : Dialect) (native : String) (reported : ReportedPrecision) :
    Except Error SemanticType :=
  match d.decimalScale native with
  | some (.ok scale) => .ok (.decimal scale)
  | some (.error fault) => .error (.invalidScale native fault)
  | none => .ok (d.typeByClass native reported)

end Dialect

end SqlQuery
