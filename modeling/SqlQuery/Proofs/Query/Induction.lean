import SqlQuery.Query

/-!
Induction over queries. Expressions and relations hold each other in lists, options and records,
so the cases of an induction over both are gathered in one structure, a field for each kind of
node, and proved to reach every node.
-/

namespace SqlQuery

variable {P : Expr → Prop} {Q : Relation → Prop}

/-- What an induction knows of the parts of a SELECT. -/
structure SelectOf.Parts (P : Expr → Prop) (Q : Relation → Prop) (s : Select) : Prop where
  table : ∀ r, s.table = some r → Q r
  columns : ∀ es, s.columns = some es → ∀ e ∈ es, P e
  filters : ∀ e ∈ s.filters, P e
  orderBy : ∀ e ∈ s.orderBy, P e
  groupBy : ∀ e ∈ s.groupBy, P e
  having : ∀ e ∈ s.having, P e

/-- The cases of an induction over queries. A grouping also knows the parts of a SELECT that it
groups, because the two can be written as one. -/
structure QueryInduction (P : Expr → Prop) (Q : Relation → Prop) : Prop where
  value : ∀ v, P (.value v)
  code : ∀ sql, P (.code sql)
  column : ∀ c, P (.column c)
  placeholder : ∀ id name, P (.placeholder id name)
  aliased : ∀ e name, P e → P (.aliased e name)
  concat : ∀ items separator, (∀ e ∈ items, P e) → P (.concat items separator)
  countAll : ∀ distinct, P (.count none distinct)
  count : ∀ e distinct, P e → P (.count (some e) distinct)
  call : ∀ function arguments, (∀ e ∈ arguments, P e) → P (.call function arguments)
  case : ∀ branches otherwise, (∀ b ∈ branches, P b.condition ∧ P b.result) →
    (∀ e, otherwise = some e → P e) → P (.case ⟨branches, otherwise⟩)
  isDistinctFrom : ∀ left right, P left → P right → P (.isDistinctFrom left right)
  binary : ∀ operator arguments, (∀ e ∈ arguments, P e) → P (.binary operator arguments)
  negate : ∀ e, P e → P (.negate e)
  isIn : ∀ e list, P e → (∀ e ∈ list, P e) → P (.isIn e list)
  cast : ∀ e type, P e → P (.cast e type)
  random : P .random
  currentTimestamp : P .currentTimestamp
  param : ∀ name, P (.param name)
  subquery : ∀ r, Q r → P (.subquery r)
  table : ∀ t, Q (.table t)
  tableAlias : ∀ id source name, Q source → Q (.aliased ⟨id, source, name⟩)
  join : ∀ id sources kind on columns, (∀ r ∈ sources, Q r) → (∀ e ∈ on, P e) →
    (∀ es, columns = some es → ∀ e ∈ es, P e) → Q (.join ⟨id, sources, kind, on, columns⟩)
  grouping : ∀ id table keys values having, Q table →
    (∀ s, table = .select s → s.Parts P Q) → (∀ e ∈ keys, P e) → (∀ e ∈ values, P e) →
    (∀ e ∈ having, P e) → Q (.grouping ⟨id, table, keys, values, having⟩)
  setOperation : ∀ id operator left right, Q left → Q right →
    Q (.setOperation ⟨id, operator, left, right⟩)
  select : ∀ s : Select, s.Parts P Q → Q (.select s)
  cte : ∀ id source name params, Q source → Q (.cte ⟨id, source, name, params⟩)
  tableParam : ∀ p, Q (.param p)

namespace QueryInduction

mutual

theorem expr (h : QueryInduction P Q) : (e : Expr) → P e
  | .value v => h.value v
  | .code sql => h.code sql
  | .column c => h.column c
  | .placeholder id name => h.placeholder id name
  | .aliased e name => h.aliased e name (h.expr e)
  | .concat items separator => h.concat items separator (h.exprs items)
  | .count none distinct => h.countAll distinct
  | .count (some e) distinct => h.count e distinct (h.expr e)
  | .call function arguments => h.call function arguments (h.exprs arguments)
  | .case ⟨branches, none⟩ => h.case branches none (h.branches branches) nofun
  | .case ⟨branches, some e⟩ =>
      h.case branches (some e) (h.branches branches) fun _ same => Option.some.inj same ▸ h.expr e
  | .isDistinctFrom left right => h.isDistinctFrom left right (h.expr left) (h.expr right)
  | .binary operator arguments => h.binary operator arguments (h.exprs arguments)
  | .negate e => h.negate e (h.expr e)
  | .isIn e list => h.isIn e list (h.expr e) (h.exprs list)
  | .cast e type => h.cast e type (h.expr e)
  | .random => h.random
  | .currentTimestamp => h.currentTimestamp
  | .param name => h.param name
  | .subquery r => h.subquery r (h.relation r)

theorem exprs (h : QueryInduction P Q) : (es : List Expr) → ∀ e ∈ es, P e
  | [] => nofun
  | e :: rest => List.forall_mem_cons.mpr ⟨h.expr e, h.exprs rest⟩

theorem optionalExprs (h : QueryInduction P Q) :
    (es : Option (List Expr)) → ∀ items, es = some items → ∀ e ∈ items, P e
  | none => nofun
  | some items => fun _ same => Option.some.inj same ▸ h.exprs items

theorem branches (h : QueryInduction P Q) :
    (bs : List (BranchOf Expr)) → ∀ b ∈ bs, P b.condition ∧ P b.result
  | [] => nofun
  | ⟨condition, result⟩ :: rest =>
      List.forall_mem_cons.mpr ⟨⟨h.expr condition, h.expr result⟩, h.branches rest⟩

theorem relation (h : QueryInduction P Q) : (r : Relation) → Q r
  | .table t => h.table t
  | .aliased ⟨id, source, name⟩ => h.tableAlias id source name (h.relation source)
  | .join ⟨id, sources, kind, on, columns⟩ =>
      h.join id sources kind on columns (h.relations sources) (h.exprs on)
        (h.optionalExprs columns)
  | .grouping ⟨id, table, keys, values, having⟩ =>
      h.grouping id table keys values having (h.relation table) (h.grouped table) (h.exprs keys)
        (h.exprs values) (h.exprs having)
  | .setOperation ⟨id, operator, left, right⟩ =>
      h.setOperation id operator left right (h.relation left) (h.relation right)
  | .select s => h.select s (h.parts s)
  | .cte ⟨id, source, name, params⟩ => h.cte id source name params (h.relation source)
  | .param p => h.tableParam p

theorem relations (h : QueryInduction P Q) : (rs : List Relation) → ∀ r ∈ rs, Q r
  | [] => nofun
  | r :: rest => List.forall_mem_cons.mpr ⟨h.relation r, h.relations rest⟩

theorem parts (h : QueryInduction P Q) : (s : Select) → s.Parts P Q
  | ⟨_, none, columns, filters, orderBy, groupBy, having, _, _⟩ =>
      ⟨nofun, h.optionalExprs columns, h.exprs filters, h.exprs orderBy, h.exprs groupBy,
        h.exprs having⟩
  | ⟨_, some table, columns, filters, orderBy, groupBy, having, _, _⟩ =>
      ⟨fun _ same => Option.some.inj same ▸ h.relation table, h.optionalExprs columns,
        h.exprs filters, h.exprs orderBy, h.exprs groupBy, h.exprs having⟩

theorem grouped (h : QueryInduction P Q) :
    (r : Relation) → ∀ s, r = .select s → s.Parts P Q
  | .select s => fun _ same => Relation.select.inj same ▸ h.parts s
  | .table _ => nofun
  | .aliased _ => nofun
  | .join _ => nofun
  | .grouping _ => nofun
  | .setOperation _ => nofun
  | .cte _ => nofun
  | .param _ => nofun

end

end QueryInduction

end SqlQuery
