import SqlQuery.Dialect

/-!
The dialect of DuckDB.
-/

namespace SqlQuery.Dialect

namespace DuckDB

def typeName : SemanticType → String
  | .integer => "BIGINT"
  | .float _ => "DOUBLE"
  | .timestampTz _ => "TIMESTAMP WITH TIME ZONE"
  | type => type.baseName

def bytesLiteral (bytes : List UInt8) : String :=
  "'" ++ String.join (bytes.map fun byte => "\\x" ++ hexByte byte) ++ "'::BLOB"

/-- The classes of the type names, which are compared without regard to ASCII case. -/
def typeClass (native : String) : Option TypeClass :=
  match native.map Char.toUpper with
  | "TIMESTAMP WITH TIME ZONE" => some .timestampTz
  | "TIMESTAMP" => some .timestamp
  | "DOUBLE" => some .float
  | "FLOAT" => some .float
  | "DECIMAL" => some .decimal
  | "INTEGER" => some .integer
  | "BIGINT" => some .integer
  | "VARCHAR" => some .text
  | "TEXT" => some .text
  | "UUID" => some .nativeUuid
  | "BOOLEAN" => some .boolean
  | _ => none

def afterKeyword? : List Char → List Char → Option (List Char)
  | [], text => some text
  | _ :: _, [] => none
  | k :: keyword, c :: text =>
      if c.toUpper == k then afterKeyword? keyword text else none

/-- The digits of the scale in `DECIMAL(digits, digits)`; blanks may follow the comma. -/
def scaleDigits? (text : List Char) : Option (List Char) := do
  let afterName ← afterKeyword? "DECIMAL(".toList text
  guard (afterName.takeWhile Text.isDecimalDigit ≠ [])
  match afterName.dropWhile Text.isDecimalDigit with
  | ',' :: rest =>
      let scale := rest.dropWhile Text.isBlank
      let digits := scale.takeWhile Text.isDecimalDigit
      guard (digits ≠ [] ∧ scale.dropWhile Text.isDecimalDigit = [')'])
      return digits
  | _ => none

def decimalScale (native : String) : Option (Except Text.NumberFault UInt32) :=
  (scaleDigits? (Text.trim native).toList).map Text.readUInt32

/-- Two digits fewer than the bits hold: the reported precision is higher than what survives
being written and read. -/
def floatDigits (bits : UInt32) : UInt32 :=
  .ofNat ((bitsToDigits bits).toNat - 2)

def toText (value : String) : String :=
  value ++ "::VARCHAR"

def md5AsInt (value : String) : String :=
  "('0x' || SUBSTRING(md5(" ++ value ++ "), 18,15))::BIGINT"

/-- A timestamp with six digits after the second: those of its precision, rounded or cut, and
zeros. The position of the last digit kept wraps around at 32 bits. -/
def normalizeTimestamp (value : String) (t : Temporal) : String :=
  if t.rounds ∧ t.precision ≠ 0 then
    "CONCAT(SUBSTRING(STRFTIME(" ++ value ++ "::TIMESTAMP, '%Y-%m-%d %H:%M:%S.'),1,23), " ++
      "LPAD(((ROUND(strftime(" ++ value ++ "::timestamp, '%f')::DECIMAL(15,7)/100000," ++
      toString (t.precision - 1).toNat ++ ")*100000)::INT)::VARCHAR,6,'0'))"
  else
    "rpad(substring(strftime(" ++ value ++ "::timestamp, '%Y-%m-%d %H:%M:%S.%f'),1," ++
      toString (20 + t.precision).toNat ++ "),26,'0')"

def normalizeNumber (value : String) (precision : UInt32) : String :=
  toText (value ++ "::DECIMAL(38, " ++ toString precision.toNat ++ ")")

def normalizeBoolean (value : String) : String :=
  toText (value ++ "::INTEGER")

end DuckDB

def duckDB : Dialect where
  name := "DuckDB"
  toText := DuckDB.toText
  typeName := DuckDB.typeName
  currentTimestamp := "current_timestamp"
  bytesLiteral := DuckDB.bytesLiteral
  typeClass := DuckDB.typeClass
  decimalScale := DuckDB.decimalScale
  floatDigits := DuckDB.floatDigits
  supportsPrimaryKey := true
  supportsIndexes := true
  setTimezoneToUtc := "SET GLOBAL TimeZone='UTC'"
  md5AsInt := DuckDB.md5AsInt
  normalizeTimestamp := DuckDB.normalizeTimestamp
  normalizeNumber := DuckDB.normalizeNumber
  normalizeBoolean := DuckDB.normalizeBoolean

end SqlQuery.Dialect
