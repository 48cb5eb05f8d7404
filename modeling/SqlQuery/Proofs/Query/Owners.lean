import Mathlib.Data.List.Basic
import SqlQuery.Proofs.Query.Substitution
import SqlQuery.Query.Owners

/-!
The owners of columns as lists over the parts of a node, and under other identities for relations.
-/

namespace SqlQuery

@[simp] theorem Expr.ownersOfAll_eq_flatMap (es : List Expr) :
    Expr.ownersOfAll es = es.flatMap Expr.owners := by
  induction es with
  | nil => rfl
  | cons e rest ih => rw [Expr.ownersOfAll, ih, List.flatMap_cons]

@[simp] theorem Expr.ownersOfOptional_eq_flatMap (es : Option (List Expr)) :
    Expr.ownersOfOptional es = (es.getD []).flatMap Expr.owners := by
  cases es with
  | none => rfl
  | some es => exact Expr.ownersOfAll_eq_flatMap es

@[simp] theorem Expr.ownersOfBranches_eq_flatMap (branches : List (BranchOf Expr)) :
    Expr.ownersOfBranches branches =
      branches.flatMap fun b => b.condition.owners ++ b.result.owners := by
  induction branches with
  | nil => rfl
  | cons branch rest ih => rw [Expr.ownersOfBranches, ih, List.flatMap_cons]

@[simp] theorem Relation.ownersOfAll_eq_flatMap (rs : List Relation) :
    Relation.ownersOfAll rs = rs.flatMap Relation.owners := by
  induction rs with
  | nil => rfl
  | cons r rest ih => rw [Relation.ownersOfAll, ih, List.flatMap_cons]

@[simp] theorem Relation.ownersOfOptional_eq_flatMap (r : Option Relation) :
    Relation.ownersOfOptional r = r.toList.flatMap Relation.owners := by
  cases r with
  | none => rfl
  | some r => simp [Relation.ownersOfOptional]

section Renaming

variable (f : RelationId → RelationId)

def Expr.OwnersRenamed (e : Expr) : Prop :=
  (e.substitute (.renaming f)).owners = e.owners.map f

def Relation.OwnersRenamed (r : Relation) : Prop :=
  (r.substitute (.renaming f)).owners = r.owners.map f

variable {f}

theorem Expr.OwnersRenamed.all {es : List Expr} (renamed : ∀ e ∈ es, e.OwnersRenamed f) :
    (es.map (Expr.substitute (.renaming f))).flatMap Expr.owners =
      (es.flatMap Expr.owners).map f := by
  rw [List.flatMap_map, List.map_flatMap]
  exact List.flatMap_congr renamed

theorem Relation.OwnersRenamed.all {rs : List Relation} (renamed : ∀ r ∈ rs, r.OwnersRenamed f) :
    (rs.map (Relation.substitute (.renaming f))).flatMap Relation.owners =
      (rs.flatMap Relation.owners).map f := by
  rw [List.flatMap_map, List.map_flatMap]
  exact List.flatMap_congr renamed

theorem Expr.OwnersRenamed.columns {columns : Option (List Expr)}
    (renamed : ∀ es, columns = some es → ∀ e ∈ es, e.OwnersRenamed f) :
    ((columns.map (List.map (Expr.substitute (.renaming f)))).getD []).flatMap Expr.owners =
      ((columns.getD []).flatMap Expr.owners).map f := by
  cases columns with
  | none => rfl
  | some es => exact Expr.OwnersRenamed.all (renamed es rfl)

variable (f) in
theorem Expr.owners_renaming_induction :
    QueryInduction (Expr.OwnersRenamed f) (Relation.OwnersRenamed f) where
  value _ := rfl
  code _ := rfl
  column c := by simp [Expr.OwnersRenamed, Expr.substitute, Expr.owners, Substitution.renaming]
  placeholder _ _ := rfl
  aliased e name renamed := by
    simpa only [Expr.OwnersRenamed, Expr.substitute, Expr.owners] using renamed
  concat items separator renamed := by
    simpa [Expr.OwnersRenamed, Expr.substitute, Expr.owners] using Expr.OwnersRenamed.all renamed
  countAll _ := rfl
  count e distinct renamed := by
    simpa only [Expr.OwnersRenamed, Expr.substitute, Expr.substituteOptional, Expr.owners]
      using renamed
  call function arguments renamed := by
    simpa [Expr.OwnersRenamed, Expr.substitute, Expr.owners] using Expr.OwnersRenamed.all renamed
  case branches otherwise branchesRenamed otherwiseRenamed := by
    have branchOwners : (branches.map (BranchOf.substitute (.renaming f))).flatMap
        (fun b => b.condition.owners ++ b.result.owners) =
          (branches.flatMap fun b => b.condition.owners ++ b.result.owners).map f := by
      rw [List.flatMap_map, List.map_flatMap]
      apply List.flatMap_congr
      intro b listed
      obtain ⟨condition, result⟩ := branchesRenamed b listed
      rw [List.map_append, ← condition, ← result]
      rfl
    rw [Expr.OwnersRenamed, Expr.substitute, Expr.substituteBranches_eq_map]
    cases otherwise with
    | none => simpa only [Expr.substituteOptional, Expr.owners, Expr.ownersOfBranches_eq_flatMap]
        using branchOwners
    | some e =>
        have renamed : (e.substitute (.renaming f)).owners = e.owners.map f :=
          otherwiseRenamed e rfl
        simp only [Expr.substituteOptional, Expr.owners, Expr.ownersOfBranches_eq_flatMap,
          branchOwners, renamed, List.map_append]
  isDistinctFrom left right leftRenamed rightRenamed := by
    simp only [Expr.OwnersRenamed] at leftRenamed rightRenamed
    simp only [Expr.OwnersRenamed, Expr.substitute, Expr.owners, leftRenamed, rightRenamed,
      List.map_append]
  binary operator arguments renamed := by
    simpa [Expr.OwnersRenamed, Expr.substitute, Expr.owners] using Expr.OwnersRenamed.all renamed
  negate e renamed := by
    simpa only [Expr.OwnersRenamed, Expr.substitute, Expr.owners] using renamed
  isIn e list renamed listRenamed := by
    simp only [Expr.OwnersRenamed] at renamed
    simp only [Expr.OwnersRenamed, Expr.substitute, Expr.owners, renamed,
      Expr.substituteAll_eq_map, Expr.ownersOfAll_eq_flatMap, Expr.OwnersRenamed.all listRenamed,
      List.map_append]
  cast e type renamed := by
    simpa only [Expr.OwnersRenamed, Expr.substitute, Expr.owners] using renamed
  random := rfl
  currentTimestamp := rfl
  param _ := rfl
  subquery r renamed := by
    simpa only [Expr.OwnersRenamed, Relation.OwnersRenamed, Expr.substitute, Expr.owners]
      using renamed
  table _ := rfl
  tableAlias id source name renamed := by
    simpa only [Relation.OwnersRenamed, Relation.substitute, Relation.owners] using renamed
  join id sources kind on columns sourcesRenamed onRenamed columnsRenamed := by
    simp only [Relation.OwnersRenamed, Relation.substitute, Relation.substituteAll_eq_map,
      Expr.substituteAll_eq_map, Expr.substituteColumns_eq_map, Relation.owners,
      Relation.ownersOfAll_eq_flatMap, Expr.ownersOfAll_eq_flatMap,
      Expr.ownersOfOptional_eq_flatMap, Relation.OwnersRenamed.all sourcesRenamed,
      Expr.OwnersRenamed.all onRenamed, Expr.OwnersRenamed.columns columnsRenamed,
      List.map_append]
  grouping id table keys values having tableRenamed _ keysRenamed valuesRenamed havingRenamed := by
    simp only [Relation.OwnersRenamed] at tableRenamed
    simp only [Relation.OwnersRenamed, Relation.substitute, Expr.substituteAll_eq_map,
      Relation.owners, tableRenamed, Expr.ownersOfAll_eq_flatMap,
      Expr.OwnersRenamed.all keysRenamed, Expr.OwnersRenamed.all valuesRenamed,
      Expr.OwnersRenamed.all havingRenamed, List.map_append]
  setOperation id operator left right leftRenamed rightRenamed := by
    simp only [Relation.OwnersRenamed] at leftRenamed rightRenamed
    simp only [Relation.OwnersRenamed, Relation.substitute, Relation.owners, leftRenamed,
      rightRenamed, List.map_append]
  select s parts := by
    have table : (s.table.map (Relation.substitute (.renaming f))).toList.flatMap
        Relation.owners = (s.table.toList.flatMap Relation.owners).map f := by
      rw [Option.toList_map]
      exact Relation.OwnersRenamed.all fun r listed => parts.table r (Option.mem_toList.mp listed)
    rw [Relation.OwnersRenamed, Relation.substitute_select]
    simp only [SelectOf.substitute, Relation.owners, Relation.ownersOfOptional_eq_flatMap,
      Expr.ownersOfAll_eq_flatMap, Expr.ownersOfOptional_eq_flatMap, table,
      Expr.OwnersRenamed.columns parts.columns, Expr.OwnersRenamed.all parts.filters,
      Expr.OwnersRenamed.all parts.orderBy, Expr.OwnersRenamed.all parts.groupBy,
      Expr.OwnersRenamed.all parts.having, List.map_append]
  cte id source name params renamed := by
    simpa only [Relation.OwnersRenamed, Relation.substitute, Relation.owners] using renamed
  tableParam _ := rfl

theorem Relation.owners_renaming (r : Relation) :
    (r.substitute (.renaming f)).owners = r.owners.map f :=
  (Expr.owners_renaming_induction f).relation r

theorem Node.owners_renaming (node : Node) :
    (node.substitute (.renaming f)).owners = node.owners.map f := by
  cases node with
  | expr e => exact (Expr.owners_renaming_induction f).expr e
  | relation r => exact r.owners_renaming
  | statement s =>
      cases s with
      | create s =>
          obtain ⟨table, source, ifNotExists, primaryKeys⟩ := s
          cases source with
          | none => rfl
          | some r => exact r.owners_renaming
      | insert s =>
          obtain ⟨table, source, columns⟩ := s
          cases source with
          | rows rows => rfl
          | query r => exact r.owners_renaming
      | explain query => exact query.owners_renaming
      | drop s => rfl
      | truncate t => rfl
      | commit => rfl

end Renaming

end SqlQuery
