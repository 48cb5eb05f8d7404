import SqlQuery.ExprType.Unify
import SqlQuery.Store

/-!
Names, types and schemas. The type of an expression and the schema of a relation are read off
their structure; what a placeholder stands for comes from an `Interpretation`, and that of a store
follows the bindings of the store link by link.
-/

namespace SqlQuery

/-- The name and the type that placeholders have. -/
structure Interpretation where
  name : PlaceholderId → Option String
  type : PlaceholderId → String → Except Error ExprType

def Expr.nameIn (env : Interpretation) : Expr → Option String
  | .column c => some c.name
  | .aliased _ name => some name
  | .placeholder id _ => env.name id
  | _ => none

def Schema.columnType (schema : Option Schema) (label name : String) :
    Except Error SemanticType :=
  match schema with
  | none => .error (.schemaRequired label)
  | some schema =>
      match schema.get? name with
      | some type => .ok type
      | none => .error (.unknownColumn label name)

/-- The schema of a set operation is that of its left side; both sides need equally many
columns. -/
def SetOperator.schema (operator : SetOperator) (left right : Option Schema) :
    Except Error (Option Schema) :=
  match left, right with
  | some l, some r =>
      if l.size = r.size then .ok left else .error (.widthMismatch operator l.size r.size)
  | _, _ => .ok left

mutual

def Expr.typeIn (env : Interpretation) : Expr → Except Error ExprType
  | .value v => .ok (.literal v.literalType)
  | .code _ => .ok .unknown
  | .column ⟨source, name⟩ => do
      let schema ← source.schemaIn env
      return .semantic (← Schema.columnType schema source.label name)
  | .placeholder id name => env.type id name
  | .aliased e _ => e.typeIn env
  | .concat _ _ => .ok (.semantic .text)
  | .count _ _ => .ok (.semantic .integer)
  | .call _ _ => .ok .unknown
  | .case ⟨branches, otherwise⟩ => do
      let results ← Expr.branchTypesIn env branches
      match otherwise with
      | none => ExprType.unify results "Non-matching types in when"
      | some e => ExprType.unify (results ++ [← e.typeIn env]) "Non-matching types in when"
  | .isDistinctFrom _ _ => .ok .boolean
  | .binary operator arguments =>
      if operator.isArithmetic then do
        ExprType.unify (← Expr.typesIn env arguments) "Expected all args to have the same type"
      else
        .ok .boolean
  | .negate e => e.typeIn env
  | .isIn _ _ => .ok .boolean
  | .cast _ type => .ok (.semantic type)
  | .random => .ok (.literal .float)
  | .currentTimestamp => .ok (.literal .timestamp)
  | .param _ => .ok .unknown
  | .subquery _ => .ok .unknown

def Expr.typesIn (env : Interpretation) : List Expr → Except Error (List ExprType)
  | [] => .ok []
  | e :: rest => do
      let type ← e.typeIn env
      return type :: (← Expr.typesIn env rest)

def Expr.branchTypesIn (env : Interpretation) :
    List (BranchOf Expr) → Except Error (List ExprType)
  | [] => .ok []
  | ⟨_, result⟩ :: rest => do
      let type ← result.typeIn env
      return type :: (← Expr.branchTypesIn env rest)

/-- Adds selected columns to a schema, the first of them at a position counted from one. Every
one needs a name and a type. -/
def Expr.columnsIn (env : Interpretation) (schema : Schema) (position : Nat) :
    List Expr → Except Error Schema
  | [] => .ok schema
  | e :: rest =>
      match e.nameIn env with
      | none => .error (.unnamedColumn position)
      | some name => do
          let type ← e.typeIn env
          Expr.columnsIn env (schema.insert name type.columnType) (position + 1) rest

def Relation.schemaIn (env : Interpretation) : Relation → Except Error (Option Schema)
  | .table t => .ok t.schema
  | .aliased ⟨_, source, _⟩ => source.schemaIn env
  | .join ⟨_, sources, _, _, columns⟩ =>
      match columns with
      | none => .error .openJoinSchema
      | some columns =>
          match sources with
          | [] => .ok none
          | first :: _ => do
              match ← first.schemaIn env with
              | none => return none
              | some base => return some (← Expr.columnsIn env base.emptyLike 1 columns)
  | .grouping ⟨_, table, keys, values, _⟩ => do
      match ← table.schemaIn env with
      | none => return none
      | some base =>
          let keyed ← Expr.columnsIn env base.emptyLike 1 keys
          return some (← Expr.columnsIn env keyed (keys.length + 1) values)
  | .setOperation ⟨_, operator, left, right⟩ => do
      let left ← left.schemaIn env
      let right ← right.schemaIn env
      operator.schema left right
  | .select ⟨_, table, columns, _, _, _, _, _, _⟩ =>
      match table, columns with
      | none, _ => .ok none
      | some table, none => table.schemaIn env
      | some table, some columns => do
          match ← table.schemaIn env with
          | none => return none
          | some base => return some (← Expr.columnsIn env base.emptyLike 1 columns)
  | .cte ⟨_, source, _, _⟩ => source.schemaIn env
  | .param _ => .ok none

end

/-- What placeholders stand for when at most the given number of bindings is followed. -/
def Store.interpretation (store : Store) : Nat → Interpretation
  | 0 =>
    { name := fun _ => none
      type := fun id name => do
        discard (store.resolve id name)
        throw .unending }
  | links + 1 =>
    { name := fun id =>
        (store.binding? id).bind (Expr.nameIn (store.interpretation links))
      type := fun id name => do
        (← store.resolve id name).typeIn (store.interpretation links) }

/-! Names, types and schemas in a store. -/

def Store.meaning (store : Store) : Interpretation :=
  store.interpretation store.depth

def Expr.name (store : Store) (e : Expr) : Option String :=
  e.nameIn store.meaning

def Expr.type (store : Store) (e : Expr) : Except Error ExprType :=
  e.typeIn store.meaning

def Relation.schema (store : Store) (r : Relation) : Except Error (Option Schema) :=
  r.schemaIn store.meaning

def CaseOf.type (store : Store) (c : Case) : Except Error ExprType :=
  (Expr.case c).type store

def ColumnOf.type (store : Store) (c : Column) : Except Error SemanticType := do
  Schema.columnType (← c.source.schema store) c.source.label c.name

/-- A column of exactly one of the joined relations. A relation without a schema may have any
column, and then it is the owner if no other relation has the name. -/
def Relation.joinedColumn (sources : List (Relation × Option Schema)) (name : String) :
    Except Error Column :=
  let found := sources.filterMap fun (source, schema) =>
    (schema.bind (·.getKey? name)).map fun key => (⟨source, key⟩ : Column)
  let unlisted := (sources.filter fun (_, schema) => schema.isNone).map Prod.fst
  match found, unlisted with
  | [column], _ => .ok column
  | [], [source] => .ok ⟨source, name⟩
  | [], [] => .error (.unknownColumn "join" name)
  | _, _ => .error (.ambiguousColumn name)

/-- Looks a column up by name. The spelling of the schema is kept; a relation without a schema has
every column. -/
def Relation.column (store : Store) : Relation → String → Except Error Column
  | self@(.join ⟨_, sources, _, _, columns⟩), name =>
      match columns with
      | none => do
          let schemas ← sources.mapM fun source => return (source, ← source.schema store)
          Relation.joinedColumn schemas name
      | some _ => listed self name
  | self@(.select ⟨_, source, columns, _, _, _, _, _, _⟩), name =>
      match columns, source with
      | none, none => .ok ⟨self, name⟩
      | none, some inner => do return ⟨self, (← inner.column store name).name⟩
      | some _, _ => listed self name
  | r, name => listed r name
where
  listed (r : Relation) (name : String) : Except Error Column := do
    match ← r.schema store with
    | none => return ⟨r, name⟩
    | some schema =>
        match schema.getKey? name with
        | some key => return ⟨r, key⟩
        | none => throw (.unknownColumn r.label name)

end SqlQuery
