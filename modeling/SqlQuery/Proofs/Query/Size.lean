import Mathlib.Data.List.Basic
import SqlQuery.Proofs.Query.Resolved

/-!
The nodes directly under a node are smaller than it, so that a recursion over queries may go on
with any of them.
-/

namespace SqlQuery

theorem Expr.sizeOf_lt_of_child {e c : Expr} (listed : c ∈ e.children) : sizeOf c < sizeOf e := by
  cases e with
  | aliased e name =>
      cases List.mem_singleton.mp listed
      simp only [Expr.aliased.sizeOf_spec]
      omega
  | concat items separator =>
      have smaller := List.sizeOf_lt_of_mem listed
      simp only [Expr.children, Expr.concat.sizeOf_spec] at *
      omega
  | count argument distinct =>
      cases Option.mem_toList.mp listed
      simp only [Expr.count.sizeOf_spec, Option.some.sizeOf_spec]
      omega
  | call function arguments =>
      have smaller := List.sizeOf_lt_of_mem listed
      simp only [Expr.children, Expr.call.sizeOf_spec] at *
      omega
  | case c =>
      obtain ⟨branches, otherwise⟩ := c
      rcases List.mem_append.mp listed with inBranch | isElse
      · obtain ⟨b, branch, inside⟩ := List.mem_flatMap.mp inBranch
        have smaller := List.sizeOf_lt_of_mem branch
        obtain ⟨condition, result⟩ := b
        simp only [BranchOf.mk.sizeOf_spec, Expr.case.sizeOf_spec, CaseOf.mk.sizeOf_spec] at *
        rcases List.mem_pair.mp inside with rfl | rfl
        · omega
        · omega
      · cases Option.mem_toList.mp isElse
        simp only [Expr.case.sizeOf_spec, CaseOf.mk.sizeOf_spec, Option.some.sizeOf_spec]
        omega
  | isDistinctFrom left right =>
      rcases List.mem_pair.mp listed with rfl | rfl
      · simp only [Expr.isDistinctFrom.sizeOf_spec]
        omega
      · simp only [Expr.isDistinctFrom.sizeOf_spec]
        omega
  | binary operator arguments =>
      have smaller := List.sizeOf_lt_of_mem listed
      simp only [Expr.children, Expr.binary.sizeOf_spec] at *
      omega
  | negate e =>
      cases List.mem_singleton.mp listed
      simp
  | isIn e list =>
      have smaller := List.sizeOf_lt_of_mem listed
      simp only [Expr.children, Expr.isIn.sizeOf_spec, List.cons.sizeOf_spec] at *
      omega
  | cast e type =>
      cases List.mem_singleton.mp listed
      simp only [Expr.cast.sizeOf_spec]
      omega
  | _ => cases listed

theorem Relation.sizeOf_lt_of_source {r s : Relation} (listed : s ∈ r.sources) :
    sizeOf s < sizeOf r := by
  cases r with
  | table t => cases listed
  | param p => cases listed
  | aliased a =>
      cases List.mem_singleton.mp listed
      cases a
      simp only [Relation.aliased.sizeOf_spec, AliasOf.mk.sizeOf_spec]
      omega
  | join j =>
      have smaller := List.sizeOf_lt_of_mem listed
      cases j
      simp only [Relation.sources, Relation.join.sizeOf_spec, JoinOf.mk.sizeOf_spec] at *
      omega
  | grouping g =>
      cases List.mem_singleton.mp listed
      cases g
      simp only [Relation.grouping.sizeOf_spec, GroupingOf.mk.sizeOf_spec]
      omega
  | setOperation o =>
      cases o
      rcases List.mem_pair.mp listed with rfl | rfl
      · simp only [Relation.setOperation.sizeOf_spec, SetOperationOf.mk.sizeOf_spec]
        omega
      · simp only [Relation.setOperation.sizeOf_spec, SetOperationOf.mk.sizeOf_spec]
        omega
  | select s =>
      obtain ⟨id, table, columns, filters, orderBy, groupBy, having, limit, distinct⟩ := s
      cases Option.mem_toList.mp listed
      simp only [Relation.select.sizeOf_spec, SelectOf.mk.sizeOf_spec, Option.some.sizeOf_spec]
      omega
  | cte c =>
      cases List.mem_singleton.mp listed
      cases c
      simp only [Relation.cte.sizeOf_spec, CteOf.mk.sizeOf_spec]
      omega

theorem sizeOf_lt_of_getD {e : Expr} {es : Option (List Expr)} (listed : e ∈ es.getD []) :
    sizeOf e < sizeOf es := by
  cases es with
  | none => cases listed
  | some es =>
      have smaller := List.sizeOf_lt_of_mem listed
      simp only [Option.getD_some, Option.some.sizeOf_spec] at *
      omega

theorem SelectOf.sizeOf_lt_of_expr {s : Select} {e : Expr} (listed : e ∈ s.exprs) :
    sizeOf e < sizeOf s := by
  obtain ⟨id, table, columns, filters, orderBy, groupBy, having, limit, distinct⟩ := s
  simp only [SelectOf.exprs, List.mem_append] at listed
  simp only [SelectOf.mk.sizeOf_spec]
  rcases listed with (((inColumns | inFilters) | inGroupBy) | inHaving) | inOrderBy
  · have smaller := sizeOf_lt_of_getD inColumns
    omega
  · have smaller := List.sizeOf_lt_of_mem inFilters
    omega
  · have smaller := List.sizeOf_lt_of_mem inGroupBy
    omega
  · have smaller := List.sizeOf_lt_of_mem inHaving
    omega
  · have smaller := List.sizeOf_lt_of_mem inOrderBy
    omega

theorem Relation.sizeOf_lt_of_expr {r : Relation} {e : Expr} (listed : e ∈ r.exprs) :
    sizeOf e < sizeOf r := by
  cases r with
  | join j =>
      obtain ⟨id, sources, kind, on, columns⟩ := j
      simp only [Relation.exprs, List.mem_append] at listed
      simp only [Relation.join.sizeOf_spec, JoinOf.mk.sizeOf_spec]
      rcases listed with inOn | inColumns
      · have smaller := List.sizeOf_lt_of_mem inOn
        omega
      · have smaller := sizeOf_lt_of_getD inColumns
        omega
  | grouping g =>
      obtain ⟨id, table, keys, values, having⟩ := g
      simp only [Relation.exprs, List.mem_append] at listed
      simp only [Relation.grouping.sizeOf_spec, GroupingOf.mk.sizeOf_spec]
      rcases listed with (inKeys | inValues) | inHaving
      · have smaller := List.sizeOf_lt_of_mem inKeys
        omega
      · have smaller := List.sizeOf_lt_of_mem inValues
        omega
      · have smaller := List.sizeOf_lt_of_mem inHaving
        omega
  | select s =>
      have smaller := SelectOf.sizeOf_lt_of_expr listed
      simp only [Relation.select.sizeOf_spec]
      omega
  | _ => cases listed

theorem Statement.sizeOf_lt_of_source {s : Statement} {r : Relation} (listed : r ∈ s.sources) :
    sizeOf r < sizeOf s := by
  cases s with
  | create s =>
      obtain ⟨table, source, ifNotExists, primaryKeys⟩ := s
      cases Option.mem_toList.mp listed
      simp only [Statement.create.sizeOf_spec, CreateTable.mk.sizeOf_spec, Option.some.sizeOf_spec]
      omega
  | insert s =>
      obtain ⟨table, source, columns⟩ := s
      cases source with
      | rows rows => cases listed
      | query r =>
          cases List.mem_singleton.mp listed
          simp only [Statement.insert.sizeOf_spec, Insert.mk.sizeOf_spec,
            InsertSource.query.sizeOf_spec]
          omega
  | explain query =>
      cases List.mem_singleton.mp listed
      simp
  | _ => cases listed

end SqlQuery
