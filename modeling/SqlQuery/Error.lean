import SqlQuery.ExprType
import SqlQuery.Operator
import SqlQuery.Text.Digit

/-!
Everything that can go wrong, by cause: while a query is put together, typed or written out, and
while a database is reached. The wording of each cause stands in `Error.message` alone.
-/

namespace SqlQuery

/-- The stage at which an error arises. -/
inductive ErrorKind where
  | builder
  | type
  | compile
  | connect
  | execution
  deriving DecidableEq, Repr

inductive Error where
  /-- A table path without segments, or with an empty one. -/
  | emptyTablePath
  /-- A table path of more segments than a database has levels. -/
  | badTablePath (dialect path : String)
  /-- An operator all of whose arguments were skipped. -/
  | noArgument (operator : BinaryOperator)
  /-- A branch of a CASE all of whose predicates were skipped. -/
  | noPredicate
  | elseGivenTwice
  | emptyGrouping
  /-- The schema of a join whose columns are not selected yet. -/
  | openJoinSchema
  | zeroBatchSize
  | alreadyResolved (name : String)
  | unknownColumn (table column : String)
  | ambiguousColumn (column : String)
  /-- Types that should agree and do not. -/
  | typeMismatch (context : String) (types : List ExprType)
  /-- A selected expression without a name, at a position counted from one. -/
  | unnamedColumn (position : Nat)
  | widthMismatch (operator : SetOperator) (left right : Nat)
  | invalidScale (declared : String) (fault : Text.NumberFault)
  | schemaRequired (table : String)
  | emptyConcat
  | emptyCase
  | unresolved (name : String)
  | tooManyAliases (column : String)
  | missingParam (name : String)
  /-- Placeholders or parameters that lead back to themselves: there is no text to write. -/
  | unending
  | badUri (uri : String)
  | connectionRefused (reason : String)
  | execution (sql reason : String)
  deriving DecidableEq, Repr

def ErrorKind.name : ErrorKind → String
  | .builder => "Builder"
  | .type => "Type"
  | .compile => "Compile"
  | .connect => "Connect"
  | .execution => "Execution"

def uriHelp : String :=
  "duckdb://<database>@<dbpath>"

namespace Error

def kind : Error → ErrorKind
  | emptyTablePath => .builder
  | badTablePath .. => .builder
  | noArgument .. => .builder
  | noPredicate => .builder
  | elseGivenTwice => .builder
  | emptyGrouping => .builder
  | openJoinSchema => .builder
  | zeroBatchSize => .builder
  | alreadyResolved .. => .builder
  | unknownColumn .. => .builder
  | ambiguousColumn .. => .builder
  | typeMismatch .. => .type
  | unnamedColumn .. => .type
  | widthMismatch .. => .type
  | invalidScale .. => .type
  | schemaRequired .. => .type
  | emptyConcat => .compile
  | emptyCase => .compile
  | unresolved .. => .compile
  | tooManyAliases .. => .compile
  | missingParam .. => .compile
  | unending => .compile
  | badUri .. => .connect
  | connectionRefused .. => .connect
  | execution .. => .execution

def message : Error → String
  | emptyTablePath => "Table path must be a non-empty sequence of non-empty names"
  | badTablePath dialect path =>
      "Query builder error: " ++ dialect ++ ": Bad table path '" ++ path ++
        "'. Expected form: schema.table"
  | noArgument operator => "Query builder error: " ++ operator.symbol ++ " requires an argument"
  | noPredicate => "Query builder error: Expected valid whens"
  | elseGivenTwice => "Query builder error: Else clause already specified"
  | emptyGrouping => "Query builder error: GROUP BY requires at least one key or value"
  | openJoinSchema =>
      "Query builder error: Join schema requires selected columns (SELECT * is not supported)"
  | zeroBatchSize => "Query builder error: batch_size must be positive"
  | alreadyResolved name => "Already resolved: " ++ name
  | unknownColumn table column => "Column '" ++ column ++ "' not found in " ++ table
  | ambiguousColumn column => "Column '" ++ column ++ "' is ambiguous between joined tables"
  | typeMismatch context types =>
      "Type error: " ++ context ++ ": " ++ ", ".intercalate (types.map ExprType.describe)
  | unnamedColumn position =>
      "Type error: Selected column " ++ toString position ++ " has no name; give it an alias"
  | widthMismatch operator left right =>
      "Type error: " ++ operator.keyword ++
        " requires both sides to have the same number of columns (" ++
        toString left ++ " vs " ++ toString right ++ ")"
  | invalidScale declared fault =>
      "Type error: Invalid scale in " ++ declared ++ ": " ++ fault.message
  | schemaRequired table => "Schema required for table " ++ table
  | emptyConcat => "Compile error: Concat requires at least one expression"
  | emptyCase => "Compile error: CASE requires at least one WHEN"
  | unresolved name => "Column not resolved: " ++ name
  | tooManyAliases column => "Too many aliases for column " ++ column
  | missingParam name => "Missing parameter: " ++ name
  | unending => "Compile error: references without an end"
  | badUri uri => "Connection error: Bad URI '" ++ uri ++ "', expected " ++ uriHelp
  | connectionRefused reason => "Connection error: " ++ reason
  | execution _ reason => "Execution error: " ++ reason

end Error

end SqlQuery
