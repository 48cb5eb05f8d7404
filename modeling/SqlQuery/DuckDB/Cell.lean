import SqlQuery.Text.Digit
import SqlQuery.Text.Escaped
import SqlQuery.Value

/-!
The cells of DuckDB's answers and the values that they become.
-/

namespace SqlQuery.DuckDB

inductive TimeUnit where
  | second
  | millisecond
  | microsecond
  | nanosecond
  deriving DecidableEq, Repr

def TimeUnit.name : TimeUnit → String
  | second => "Second"
  | millisecond => "Millisecond"
  | microsecond => "Microsecond"
  | nanosecond => "Nanosecond"

inductive IntegerType where
  | tinyInt
  | smallInt
  | int
  | bigInt
  | hugeInt
  | uTinyInt
  | uSmallInt
  | uInt
  | uBigInt
  | uHugeInt
  deriving DecidableEq, Repr

namespace IntegerType

def name : IntegerType → String
  | tinyInt => "TinyInt"
  | smallInt => "SmallInt"
  | int => "Int"
  | bigInt => "BigInt"
  | hugeInt => "HugeInt"
  | uTinyInt => "UTinyInt"
  | uSmallInt => "USmallInt"
  | uInt => "UInt"
  | uBigInt => "UBigInt"
  | uHugeInt => "UHugeInt"

/-- Whether numbers of the type can be negative, and their number of bits. -/
def layout : IntegerType → Bool × Nat
  | tinyInt => (true, 8)
  | smallInt => (true, 16)
  | int => (true, 32)
  | bigInt => (true, 64)
  | hugeInt => (true, 128)
  | uTinyInt => (false, 8)
  | uSmallInt => (false, 16)
  | uInt => (false, 32)
  | uBigInt => (false, 64)
  | uHugeInt => (false, 128)

def contains (type : IntegerType) (n : Int) : Bool :=
  match type.layout with
  | (true, bits) => -(Nat.pow 2 (bits - 1) : Int) ≤ n && n < Nat.pow 2 (bits - 1)
  | (false, bits) => 0 ≤ n && n < Nat.pow 2 bits

def readSigned? : List Char → Option Int
  | '-' :: digits => (Text.readDigits? digits).map fun n => -(n : Int)
  | '+' :: digits => (Text.readDigits? digits).map fun n => (n : Int)
  | digits => (Text.readDigits? digits).map fun n => (n : Int)

/-- The number of the type that a text writes out, a minus sign only before what can be negative. -/
def ofText? (type : IntegerType) (text : String) : Option Int := do
  let n ← readSigned? text.toList
  guard (type.contains n && (type.layout.1 || text.toList.head? != some '-'))
  return n

end IntegerType

inductive Cell where
  | null
  | boolean (b : Bool)
  | integer (type : IntegerType) (n : Int)
  /-- A floating-point number of 32 bits. -/
  | float (bits : UInt32)
  | double (x : Binary64)
  | decimal (text : String)
  | text (s : String)
  | enum (s : String)
  | blob (bytes : List UInt8)
  | timestamp (unit : TimeUnit) (n : Int64)
  | time64 (unit : TimeUnit) (n : Int64)
  /-- A day, counted from 1970-01-01. -/
  | date32 (days : Int32)
  | interval (months days : Int32) (nanoseconds : Int64)
  | list (items : List Cell)
  | array (items : List Cell)
  | union (cell : Cell)

namespace Cell

def listText (items : List String) : String :=
  "[" ++ ", ".intercalate items ++ "]"

def unitText (name : String) (unit : TimeUnit) (n : Int64) : String :=
  name ++ "(" ++ unit.name ++ ", " ++ toString n.toInt ++ ")"

mutual

def describe : Cell → String
  | null => "Null"
  | boolean b => "Boolean(" ++ (if b then "true" else "false") ++ ")"
  | integer type n => type.name ++ "(" ++ toString n ++ ")"
  | float bits => "Float(" ++ BinaryFormat.single.described bits.toNat ++ ")"
  | double x => "Double(" ++ BinaryFormat.double.described x.bits.toNat ++ ")"
  | decimal s => "Decimal(" ++ Text.described s ++ ")"
  | text s => "Text(" ++ Text.described s ++ ")"
  | enum s => "Enum(" ++ Text.described s ++ ")"
  | blob bytes => "Blob(" ++ listText (bytes.map fun b => toString b.toNat) ++ ")"
  | timestamp unit n => unitText "Timestamp" unit n
  | time64 unit n => unitText "Time64" unit n
  | date32 days => "Date32(" ++ toString days.toInt ++ ")"
  | interval months days nanoseconds =>
      "Interval \x7b months: " ++ toString months.toInt ++ ", days: " ++ toString days.toInt ++
        ", nanos: " ++ toString nanoseconds.toInt ++ " \x7d"
  | list items => "List(" ++ listText (describeAll items) ++ ")"
  | array items => "Array(" ++ listText (describeAll items) ++ ")"
  | union cell => "Union(" ++ cell.describe ++ ")"

def describeAll : List Cell → List String
  | [] => []
  | cell :: rest => cell.describe :: describeAll rest

end

def saturate (n : Int) : Int64 :=
  if n < Int64.minValue.toInt then Int64.minValue
  else if Int64.maxValue.toInt < n then Int64.maxValue
  else .ofInt n

/-- A time in microseconds; nanoseconds are cut off toward zero, and a time out of range stays at
the end of the range. -/
def microseconds (unit : TimeUnit) (n : Int64) : Int64 :=
  match unit with
  | .second => saturate (n.toInt * 1000000)
  | .millisecond => saturate (n.toInt * 1000)
  | .microsecond => n
  | .nanosecond => .ofInt (n.toInt.tdiv 1000)

/-- A whole number, as text if it does not fit 64 bits. -/
def wholeNumber (n : Int) : Value :=
  if IntegerType.bigInt.contains n then .int (.ofInt n) else .text (toString n)

/-- A point in time, as its number of microseconds if it is out of the calendar. -/
def pointInTime (microseconds : Int64) : Value :=
  match Timestamp.ofMicroseconds? microseconds.toInt with
  | some t => .timestamp t
  | none => .int microseconds

/-- A date as text, as its number if it is out of the calendar. -/
def dateText (days : Int32) : Value :=
  if firstDay ≤ days.toInt ∧ days.toInt ≤ lastDay then
    .text (Date.ofDayNumber days.toInt).text
  else
    .int (.ofInt days.toInt)

/-- The value of a cell. A cell of a kind that values do not have becomes its description. -/
def toValue : Cell → Value
  | null => .null
  | boolean b => .bool b
  | integer .uHugeInt n => .text (integer .uHugeInt n).describe
  | integer _ n => wholeNumber n
  | float bits => .float (.ofSingleBits bits)
  | double x => .float x
  | decimal s => .text s
  | text s => .text s
  | enum s => .text s
  | blob bytes => .bytes bytes
  | timestamp unit n => pointInTime (microseconds unit n)
  | date32 days => dateText days
  | cell => .text cell.describe

end Cell

end SqlQuery.DuckDB
