import SqlQuery.SemanticType

/-!
Schemas: the columns of a relation in order, each with its type. A schema either tells names apart
by case or takes names that differ in the case of ASCII letters for one.
-/

namespace SqlQuery

inductive CaseMode where
  | sensitive
  | insensitive
  deriving DecidableEq, Repr

def CaseMode.same : CaseMode → String → String → Bool
  | sensitive, a, b => a == b
  | insensitive, a, b => a.toList.map Char.toLower == b.toList.map Char.toLower

structure Schema where
  mode : CaseMode := .insensitive
  columns : List (String × SemanticType) := []
  deriving DecidableEq, Repr

namespace Schema

/-- Gives the column of a name a type: in its place and with its first spelling if the name is
there, at the end if it is not. -/
def insertInto (mode : CaseMode) (name : String) (type : SemanticType) :
    List (String × SemanticType) → List (String × SemanticType)
  | [] => [(name, type)]
  | (key, old) :: rest =>
      if mode.same key name then (key, type) :: rest
      else (key, old) :: insertInto mode name type rest

def insert (schema : Schema) (name : String) (type : SemanticType) : Schema :=
  { schema with columns := insertInto schema.mode name type schema.columns }

def insertMany (schema : Schema) (columns : List (String × SemanticType)) : Schema :=
  columns.foldl (fun schema (name, type) => schema.insert name type) schema

def ofList (columns : List (String × SemanticType)) : Schema :=
  insertMany { mode := .sensitive } columns

def emptyLike (schema : Schema) : Schema :=
  { mode := schema.mode }

def find? (schema : Schema) (name : String) : Option (String × SemanticType) :=
  schema.columns.find? fun (key, _) => schema.mode.same key name

def get? (schema : Schema) (name : String) : Option SemanticType :=
  (schema.find? name).map Prod.snd

/-- The spelling under which a column was first added. -/
def getKey? (schema : Schema) (name : String) : Option String :=
  (schema.find? name).map Prod.fst

def contains (schema : Schema) (name : String) : Bool :=
  (schema.find? name).isSome

def size (schema : Schema) : Nat :=
  schema.columns.length

def isEmpty (schema : Schema) : Bool :=
  schema.columns.isEmpty

def names (schema : Schema) : List String :=
  schema.columns.map Prod.fst

end Schema

end SqlQuery
