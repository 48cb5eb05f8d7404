import SqlQuery.Proofs.Query.Induction
import SqlQuery.Proofs.Query.Mention

/-!
Queries in which the relations have other identities and expressions stand for parameters.
-/

theorem List.lookup_map_values {α β γ : Type} [BEq α] (f : β → γ) (entries : List (α × β))
    (key : α) :
    (entries.map fun entry => (entry.1, f entry.2)).lookup key = (entries.lookup key).map f := by
  induction entries with
  | nil => rfl
  | cons entry rest ih =>
      rw [List.map_cons, List.lookup_cons, List.lookup_cons, ih]
      cases key == entry.1 <;> rfl

namespace SqlQuery

/-- An identity for each identity of a relation, and an expression for each parameter. -/
structure Substitution where
  relation : RelationId → RelationId
  param : String → Expr

def Substitution.renaming (relation : RelationId → RelationId) : Substitution where
  relation := relation
  param := .param

def Table.substitute (σ : Substitution) (t : Table) : Table :=
  { t with id := σ.relation t.id }

mutual

/-- The relation that a column belongs to is never written out, so parameters stay in it. -/
def Expr.substitute (σ : Substitution) : Expr → Expr
  | .value v => .value v
  | .code sql => .code sql
  | .column ⟨source, name⟩ => .column ⟨source.substitute (.renaming σ.relation), name⟩
  | .placeholder id name => .placeholder id name
  | .aliased e name => .aliased (e.substitute σ) name
  | .concat items separator => .concat (Expr.substituteAll σ items) separator
  | .count argument distinct => .count (Expr.substituteOptional σ argument) distinct
  | .call function arguments => .call function (Expr.substituteAll σ arguments)
  | .case ⟨branches, otherwise⟩ =>
      .case ⟨Expr.substituteBranches σ branches, Expr.substituteOptional σ otherwise⟩
  | .isDistinctFrom left right => .isDistinctFrom (left.substitute σ) (right.substitute σ)
  | .binary operator arguments => .binary operator (Expr.substituteAll σ arguments)
  | .negate e => .negate (e.substitute σ)
  | .isIn e list => .isIn (e.substitute σ) (Expr.substituteAll σ list)
  | .cast e type => .cast (e.substitute σ) type
  | .random => .random
  | .currentTimestamp => .currentTimestamp
  | .param name => σ.param name
  | .subquery r => .subquery (r.substitute σ)

def Expr.substituteAll (σ : Substitution) : List Expr → List Expr
  | [] => []
  | e :: rest => e.substitute σ :: Expr.substituteAll σ rest

def Expr.substituteOptional (σ : Substitution) : Option Expr → Option Expr
  | none => none
  | some e => some (e.substitute σ)

def Expr.substituteColumns (σ : Substitution) : Option (List Expr) → Option (List Expr)
  | none => none
  | some columns => some (Expr.substituteAll σ columns)

def Expr.substituteBranches (σ : Substitution) : List (BranchOf Expr) → List (BranchOf Expr)
  | [] => []
  | ⟨condition, result⟩ :: rest =>
      ⟨condition.substitute σ, result.substitute σ⟩ :: Expr.substituteBranches σ rest

def Relation.substitute (σ : Substitution) : Relation → Relation
  | .table t => .table (t.substitute σ)
  | .aliased ⟨id, source, name⟩ => .aliased ⟨σ.relation id, source.substitute σ, name⟩
  | .join ⟨id, sources, kind, on, columns⟩ =>
      .join ⟨σ.relation id, Relation.substituteAll σ sources, kind, Expr.substituteAll σ on,
        Expr.substituteColumns σ columns⟩
  | .grouping ⟨id, table, keys, values, having⟩ =>
      .grouping ⟨σ.relation id, table.substitute σ, Expr.substituteAll σ keys,
        Expr.substituteAll σ values, Expr.substituteAll σ having⟩
  | .setOperation ⟨id, operator, left, right⟩ =>
      .setOperation ⟨σ.relation id, operator, left.substitute σ, right.substitute σ⟩
  | .select ⟨id, table, columns, filters, orderBy, groupBy, having, limit, distinct⟩ =>
      .select ⟨σ.relation id, Relation.substituteOptional σ table,
        Expr.substituteColumns σ columns, Expr.substituteAll σ filters,
        Expr.substituteAll σ orderBy, Expr.substituteAll σ groupBy, Expr.substituteAll σ having,
        limit, distinct⟩
  | .cte ⟨id, source, name, params⟩ => .cte ⟨σ.relation id, source.substitute σ, name, params⟩
  | .param ⟨id, name⟩ => .param ⟨σ.relation id, name⟩

def Relation.substituteAll (σ : Substitution) : List Relation → List Relation
  | [] => []
  | r :: rest => r.substitute σ :: Relation.substituteAll σ rest

def Relation.substituteOptional (σ : Substitution) : Option Relation → Option Relation
  | none => none
  | some r => some (r.substitute σ)

end

def BranchOf.substitute (σ : Substitution) (b : Branch) : Branch where
  condition := b.condition.substitute σ
  result := b.result.substitute σ

def SelectOf.substitute (σ : Substitution) (s : Select) : Select :=
  { s with
    id := σ.relation s.id
    table := s.table.map (Relation.substitute σ)
    columns := s.columns.map (List.map (Expr.substitute σ))
    filters := s.filters.map (Expr.substitute σ)
    orderBy := s.orderBy.map (Expr.substitute σ)
    groupBy := s.groupBy.map (Expr.substitute σ)
    having := s.having.map (Expr.substitute σ) }

def Statement.substitute (σ : Substitution) : Statement → Statement
  | .create s => .create
      { s with table := s.table.substitute σ, source := s.source.map (Relation.substitute σ) }
  | .drop s => .drop { s with table := s.table.substitute σ }
  | .truncate t => .truncate (t.substitute σ)
  | .insert ⟨table, .rows rows, columns⟩ => .insert ⟨table.substitute σ, .rows rows, columns⟩
  | .insert ⟨table, .query r, columns⟩ =>
      .insert ⟨table.substitute σ, .query (r.substitute σ), columns⟩
  | .commit => .commit
  | .explain query => .explain (query.substitute σ)

def Node.substitute (σ : Substitution) : Node → Node
  | .expr e => .expr (e.substitute σ)
  | .relation r => .relation (r.substitute σ)
  | .statement s => .statement (s.substitute σ)

def Store.substitute (σ : Substitution) (store : Store) : Store :=
  { store with bindings := store.bindings.map fun binding => (binding.1, binding.2.substitute σ) }

section

variable (σ : Substitution)

@[simp] theorem Expr.substituteAll_eq_map (es : List Expr) :
    Expr.substituteAll σ es = es.map (Expr.substitute σ) := by
  induction es with
  | nil => rfl
  | cons e rest ih => rw [Expr.substituteAll, ih, List.map_cons]

@[simp] theorem Expr.substituteOptional_eq_map (e : Option Expr) :
    Expr.substituteOptional σ e = e.map (Expr.substitute σ) := by
  cases e <;> rfl

@[simp] theorem Expr.substituteColumns_eq_map (columns : Option (List Expr)) :
    Expr.substituteColumns σ columns = columns.map (List.map (Expr.substitute σ)) := by
  cases columns with
  | none => rfl
  | some columns => rw [Expr.substituteColumns, Expr.substituteAll_eq_map, Option.map_some]

@[simp] theorem Expr.substituteBranches_eq_map (branches : List (BranchOf Expr)) :
    Expr.substituteBranches σ branches = branches.map (BranchOf.substitute σ) := by
  induction branches with
  | nil => rfl
  | cons branch rest ih => rw [Expr.substituteBranches, ih, List.map_cons]; rfl

@[simp] theorem Relation.substituteAll_eq_map (rs : List Relation) :
    Relation.substituteAll σ rs = rs.map (Relation.substitute σ) := by
  induction rs with
  | nil => rfl
  | cons r rest ih => rw [Relation.substituteAll, ih, List.map_cons]

@[simp] theorem Relation.substituteOptional_eq_map (r : Option Relation) :
    Relation.substituteOptional σ r = r.map (Relation.substitute σ) := by
  cases r <;> rfl

@[simp] theorem Relation.id_substitute (r : Relation) :
    (r.substitute σ).id = σ.relation r.id := by
  cases r <;> rfl

@[simp] theorem Relation.isQuery_substitute (r : Relation) :
    (r.substitute σ).isQuery = r.isQuery := by
  cases r <;> rfl

theorem Relation.substitute_select (s : Select) :
    (Relation.select s).substitute σ = .select (s.substitute σ) := by
  obtain ⟨id, table, columns, filters, orderBy, groupBy, having, limit, distinct⟩ := s
  simp only [Relation.substitute, SelectOf.substitute, Relation.substituteOptional_eq_map,
    Expr.substituteColumns_eq_map, Expr.substituteAll_eq_map]

theorem Store.binding?_substitute (store : Store) (id : PlaceholderId) :
    (store.substitute σ).binding? id = (store.binding? id).map (Expr.substitute σ) :=
  List.lookup_map_values (Expr.substitute σ) store.bindings id

end

/-! Substitutions that agree on the parameters of a query. -/

section

variable {σ τ : Substitution}

/-- What a query may mention for two substitutions to come to the same. -/
def Substitution.AgreeOn (σ τ : Substitution) (m : Mention) : Prop :=
  ∀ name, m = .param name → σ.param name = τ.param name

section

variable (σ τ : Substitution)

def Expr.Agrees (e : Expr) : Prop :=
  e.MentionsOnly (σ.AgreeOn τ) → e.substitute σ = e.substitute τ

def Relation.Agrees (r : Relation) : Prop :=
  r.MentionsOnly (σ.AgreeOn τ) → r.substitute σ = r.substitute τ

end

theorem Expr.Agrees.all {es : List Expr} (agree : ∀ e ∈ es, e.Agrees σ τ)
    (only : ∀ e ∈ es, e.MentionsOnly (σ.AgreeOn τ)) :
    es.map (Expr.substitute σ) = es.map (Expr.substitute τ) :=
  List.map_congr_left fun e listed => agree e listed (only e listed)

theorem Expr.Agrees.columns {columns : Option (List Expr)}
    (agree : ∀ es, columns = some es → ∀ e ∈ es, e.Agrees σ τ)
    (only : ∀ e ∈ columns.getD [], e.MentionsOnly (σ.AgreeOn τ)) :
    columns.map (List.map (Expr.substitute σ)) = columns.map (List.map (Expr.substitute τ)) := by
  cases columns with
  | none => rfl
  | some es => exact congrArg some (Expr.Agrees.all (agree es rfl) only)

theorem Relation.select_agrees (relation : σ.relation = τ.relation) {s : Select}
    (parts : s.Parts (Expr.Agrees σ τ) (Relation.Agrees σ τ)) :
    (Relation.select s).Agrees σ τ := by
  intro only
  have exprs := only.exprs
  simp only [Relation.exprs, SelectOf.exprs, List.forall_mem_append] at exprs
  obtain ⟨⟨⟨⟨columns, filters⟩, groupBy⟩, having⟩, orderBy⟩ := exprs
  have table : s.table.map (Relation.substitute σ) = s.table.map (Relation.substitute τ) := by
    apply Option.map_congr
    intro r given
    exact parts.table r given (only.sources r (Option.mem_toList.mpr given))
  rw [Relation.substitute_select, Relation.substitute_select, SelectOf.substitute,
    SelectOf.substitute, relation, table, Expr.Agrees.columns parts.columns columns,
    Expr.Agrees.all parts.filters filters, Expr.Agrees.all parts.groupBy groupBy,
    Expr.Agrees.all parts.having having, Expr.Agrees.all parts.orderBy orderBy]

theorem Substitution.agree_induction (relation : σ.relation = τ.relation) :
    QueryInduction (Expr.Agrees σ τ) (Relation.Agrees σ τ) where
  value _ _ := rfl
  code _ _ := rfl
  column c _ := by
    obtain ⟨source, name⟩ := c
    simp only [Expr.substitute, relation]
  placeholder _ _ _ := rfl
  aliased e name agrees only := by
    simp only [Expr.substitute, agrees (only.children e (List.mem_singleton_self e))]
  concat items separator agree only := by
    simp only [Expr.substitute, Expr.substituteAll_eq_map, Expr.Agrees.all agree only.children]
  countAll _ _ := rfl
  count e distinct agrees only := by
    simp only [Expr.substitute, Expr.substituteOptional,
      agrees (only.children e (List.mem_singleton_self e))]
  call function arguments agree only := by
    simp only [Expr.substitute, Expr.substituteAll_eq_map, Expr.Agrees.all agree only.children]
  case branches otherwise branchesAgree otherwiseAgrees only := by
    have children := only.children
    simp only [Expr.children, List.forall_mem_append, List.forall_mem_flatMap,
      List.forall_mem_cons] at children
    obtain ⟨branchesOnly, otherwiseOnly⟩ := children
    have branchesSame : branches.map (BranchOf.substitute σ) =
        branches.map (BranchOf.substitute τ) := by
      apply List.map_congr_left
      intro b listed
      obtain ⟨conditionOnly, resultOnly, _⟩ := branchesOnly b listed
      rw [BranchOf.substitute, BranchOf.substitute, (branchesAgree b listed).1 conditionOnly,
        (branchesAgree b listed).2 resultOnly]
    have otherwiseSame : otherwise.map (Expr.substitute σ) = otherwise.map (Expr.substitute τ) := by
      apply Option.map_congr
      intro e given
      exact otherwiseAgrees e given (otherwiseOnly e (Option.mem_toList.mpr given))
    simp only [Expr.substitute, Expr.substituteBranches_eq_map, Expr.substituteOptional_eq_map,
      branchesSame, otherwiseSame]
  isDistinctFrom left right leftAgrees rightAgrees only := by
    have children := only.children
    simp only [Expr.children, List.forall_mem_cons] at children
    obtain ⟨leftOnly, rightOnly, _⟩ := children
    simp only [Expr.substitute, leftAgrees leftOnly, rightAgrees rightOnly]
  binary operator arguments agree only := by
    simp only [Expr.substitute, Expr.substituteAll_eq_map, Expr.Agrees.all agree only.children]
  negate e agrees only := by
    simp only [Expr.substitute, agrees (only.children e (List.mem_singleton_self e))]
  isIn e list agrees listAgrees only := by
    have children := only.children
    simp only [Expr.children, List.forall_mem_cons] at children
    obtain ⟨eOnly, listOnly⟩ := children
    simp only [Expr.substitute, Expr.substituteAll_eq_map, agrees eOnly,
      Expr.Agrees.all listAgrees listOnly]
  cast e type agrees only := by
    simp only [Expr.substitute, agrees (only.children e (List.mem_singleton_self e))]
  random _ := rfl
  currentTimestamp _ := rfl
  param name only := only.param name rfl
  subquery r agrees only := by simp only [Expr.substitute, agrees only.subquery]
  table t _ := by simp only [Relation.substitute, Table.substitute, relation]
  tableAlias id source name agrees only := by
    simp only [Relation.substitute, relation,
      agrees (only.sources source (List.mem_singleton_self source))]
  join id sources kind on columns sourcesAgree onAgree columnsAgree only := by
    have exprs := only.exprs
    simp only [Relation.exprs, List.forall_mem_append] at exprs
    obtain ⟨onOnly, columnsOnly⟩ := exprs
    have sourcesSame : sources.map (Relation.substitute σ) = sources.map (Relation.substitute τ) :=
      List.map_congr_left fun r listed => sourcesAgree r listed (only.sources r listed)
    simp only [Relation.substitute, Relation.substituteAll_eq_map, Expr.substituteAll_eq_map,
      Expr.substituteColumns_eq_map, relation, sourcesSame, Expr.Agrees.all onAgree onOnly,
      Expr.Agrees.columns columnsAgree columnsOnly]
  grouping id table keys values having tableAgrees _ keysAgree valuesAgree havingAgrees only := by
    have exprs := only.exprs
    simp only [Relation.exprs, List.forall_mem_append] at exprs
    obtain ⟨⟨keysOnly, valuesOnly⟩, havingOnly⟩ := exprs
    simp only [Relation.substitute, Expr.substituteAll_eq_map, relation,
      tableAgrees (only.sources table (List.mem_singleton_self table)),
      Expr.Agrees.all keysAgree keysOnly, Expr.Agrees.all valuesAgree valuesOnly,
      Expr.Agrees.all havingAgrees havingOnly]
  setOperation id operator left right leftAgrees rightAgrees only := by
    have sources := only.sources
    simp only [Relation.sources, List.forall_mem_cons] at sources
    obtain ⟨leftOnly, rightOnly, _⟩ := sources
    simp only [Relation.substitute, relation, leftAgrees leftOnly, rightAgrees rightOnly]
  select s parts := Relation.select_agrees relation parts
  cte id source name params agrees only := by
    simp only [Relation.substitute, relation,
      agrees (only.sources source (List.mem_singleton_self source))]
  tableParam p _ := by simp only [Relation.substitute, relation]

end

end SqlQuery
