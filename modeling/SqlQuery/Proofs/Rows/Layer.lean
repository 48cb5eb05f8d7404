import SqlQuery.Proofs.Rows.Select

/-!
Clauses that a SELECT absorbs. The rows stay those of the SELECT with the clauses around it
exactly if the clauses come to the same on the rows before and after the step of the SELECT that
they pass.
-/

namespace SqlQuery

namespace SelectOf

variable (E : Evaluation) (e : Select) (p : Clauses)

def keeps (record : Record) : Bool :=
  E.satisfies e.filters record && E.satisfies p.filters record

/-- Clauses come to the same inside a SELECT and around it. -/
structure Mergeable : Prop where
  /-- Predicates do not tell a row from the one that it is projected to. -/
  filters : p.columns = none → ∀ record, E.satisfies e.filters record →
    E.satisfies p.filters (E.project e.columns record) = E.satisfies p.filters record
  /-- Columns tell apart rows that differ, where those of a distinct SELECT are counted. -/
  distinct : p.columns.isSome → e.distinct → p.distinct = none → p.limit ≠ some 1 →
    ∀ a b, e.keeps E p a → e.keeps E p b → E.project p.columns a = E.project p.columns b → a = b
  /-- Columns keep the order of rows that they tell apart. -/
  order : p.columns.isSome → ∀ a b, e.keeps E p a → e.keeps E p b →
    E.project p.columns a ≠ E.project p.columns b →
      (E.Before e.orderBy a b ↔
        E.Before e.orderBy (E.project p.columns a) (E.project p.columns b))

structure Absorbs : Prop where
  distinct : p.distinct = some false → e.distinct = false
  limit : e.limit = none
  columns : p.columns = none ∨ e.columns = none
  orderBy : p.orderBy = [] ∨ e.orderBy = []

variable {E e p}

theorem absorbs_of_eq_true (absorbs : e.absorbs p) : e.Absorbs p := by
  simp only [SelectOf.absorbs, Bool.and_eq_true, Bool.not_eq_true', Bool.and_eq_false_iff,
    Bool.or_eq_true, List.isEmpty_iff, Option.isNone_iff_eq_none, Option.isSome_eq_false_iff,
    beq_eq_false_iff_ne, ne_eq] at absorbs
  obtain ⟨⟨⟨⟨distinct, limit⟩, _⟩, columns⟩, orderBy⟩ := absorbs
  exact ⟨fun all => distinct.resolve_left (not_not_intro all), limit, columns, orderBy⟩

end SelectOf

namespace SelectOf

variable {E : Evaluation} {e : Select} {p : Clauses}

theorem rows_absorb (id : RelationId) (absorbs : e.Absorbs p) (base : List Record) :
    (e.absorb id p).rows E base =
      E.finish p.limit (if p.orderBy.isEmpty then e.orderBy else p.orderBy)
        (p.distinct.getD e.distinct)
        ((base.filter (e.keeps E p)).map (E.project (p.columns.or e.columns))) := by
  have filters : E.satisfies (e.filters ++ p.filters) = e.keeps E p :=
    funext (E.satisfies_append e.filters p.filters)
  simp only [rows, absorb, filters, absorbs.limit, Option.or_none]

theorem distinct_or (absorbs : e.Absorbs p) :
    (p.distinct.getD false || e.distinct) = p.distinct.getD e.distinct := by
  have kept := absorbs.distinct
  cases chosen : p.distinct with
  | none => rfl
  | some distinct =>
      cases distinct with
      | true => rfl
      | false => exact kept chosen

/-- Where all columns are kept, the predicates apply to the rows of the SELECT. -/
theorem rows_wrap_of_all (id : RelationId) (absorbs : e.Absorbs p) (all : p.columns = none)
    (base : List Record) :
    (p.wrap id (.select e)).rows E (e.rows E base) =
      E.finish p.limit (if p.orderBy.isEmpty then e.orderBy else p.orderBy)
        (p.distinct.getD e.distinct)
        (((base.filter (E.satisfies e.filters)).map (E.project e.columns)).filter
          (E.satisfies p.filters)) := by
  simp only [rows, Clauses.wrap, all, absorbs.limit, Evaluation.finish, limited,
    E.map_project_none, E.filter_order, filter_dedupe, E.dedupe_order, dedupe_dedupe,
    distinct_or absorbs, E.order_order absorbs.orderBy]

/-- Where columns are selected, they are those of the rows that are kept in the end. -/
theorem rows_wrap_of_some (id : RelationId) (absorbs : e.Absorbs p)
    (some_columns : p.columns.isSome) (base : List Record) :
    (p.wrap id (.select e)).rows E (e.rows E base) =
      E.finish p.limit p.orderBy (p.distinct.getD false)
        ((E.order e.orderBy (dedupe e.distinct (base.filter (e.keeps E p)))).map
          (E.project p.columns)) := by
  have own : e.columns = none := by
    rcases absorbs.columns with all | own
    · rw [all] at some_columns
      cases some_columns
    · exact own
  have filters : (base.filter (E.satisfies e.filters)).filter (E.satisfies p.filters) =
      base.filter (e.keeps E p) := by
    rw [List.filter_filter]
    apply List.filter_congr
    intro record _
    exact Bool.and_comm _ _
  simp only [rows, Clauses.wrap, own, absorbs.limit]
  rw [E.map_project_none]
  simp only [Evaluation.finish, limited, E.filter_order, filter_dedupe, filters]

end SelectOf

namespace Evaluation

variable (E : Evaluation)

theorem finish_zero (orderBy : List Expr) (distinct : Bool) (records : List Record) :
    E.finish (some 0) orderBy distinct records = [] :=
  limited_zero _

theorem finish_one (orderBy : List Expr) (distinct : Bool) (records : List Record) :
    E.finish (some 1) orderBy distinct records = E.finish (some 1) orderBy false records := by
  rw [finish, limited_one, ← E.dedupe_order, head?_dedupe, ← limited_one]
  rfl

theorem head?_finish_filter {limit : Option UInt64} (positive : limit ≠ some 0)
    (orderBy : List Expr) (distinct : Bool) (p : Record → Bool) (record : Record) :
    (E.finish limit orderBy distinct ([record].filter p)).head? =
      if p record then some record else none := by
  rw [finish, head?_limited positive, List.filter_cons]
  split
  · cases distinct <;> rfl
  · cases distinct <;> rfl

end Evaluation

namespace SelectOf

variable {E : Evaluation} {e : Select} {p : Clauses}

theorem rows_absorb_iff_of_all (id : RelationId) (absorbs : e.Absorbs p) (all : p.columns = none) :
    (∀ base, (e.absorb id p).rows E base = (p.wrap id (.select e)).rows E (e.rows E base)) ↔
      p.limit = some 0 ∨ ∀ record, E.satisfies e.filters record →
        E.satisfies p.filters (E.project e.columns record) = E.satisfies p.filters record := by
  simp only [rows_absorb id absorbs, rows_wrap_of_all id absorbs all, all, Option.none_or]
  constructor
  · intro same
    by_cases zero : p.limit = some 0
    · exact .inl zero
    · refine .inr ?_
      intro record kept
      have heads := congrArg List.head? (same [record])
      have inside : ([record].filter (e.keeps E p)).map (E.project e.columns) =
          [E.project e.columns record].filter fun _ => E.satisfies p.filters record := by
        simp only [List.filter_cons, keeps, kept, Bool.true_and, List.filter_nil]
        split <;> rfl
      rw [inside, List.filter_cons_of_pos kept, List.filter_nil, List.map_singleton,
        E.head?_finish_filter zero, E.head?_finish_filter zero] at heads
      revert heads
      cases E.satisfies p.filters record <;>
        cases E.satisfies p.filters (E.project e.columns record) <;> simp
  · rintro (zero | filters) base
    · rw [zero, E.finish_zero, E.finish_zero]
    · congr 1
      rw [List.filter_map, List.filter_filter]
      congr 1
      apply List.filter_congr
      intro record _
      cases kept : E.satisfies e.filters record with
      | false => simp only [keeps, kept, Bool.false_and, Bool.and_false]
      | true =>
          simp only [keeps, kept, Function.comp_apply, filters record kept, Bool.true_and,
            Bool.and_true]

/-! Columns. -/

theorem map_order_of_agree (some_columns : p.columns.isSome) (mergeable : e.Mergeable E p)
    (distinct : Bool) (base : List Record) :
    (E.order e.orderBy (dedupe distinct (base.filter (e.keeps E p)))).map (E.project p.columns) =
      E.order e.orderBy ((dedupe distinct (base.filter (e.keeps E p))).map
        (E.project p.columns)) := by
  have kept : ∀ record ∈ dedupe distinct (base.filter (e.keeps E p)), e.keeps E p record :=
    fun record mem => (List.mem_filter.mp (mem_of_mem_dedupe mem)).2
  apply Rows.map_insertionSort_of_agree
  intro a memA b memB
  exact mergeable.order some_columns a b (kept a memA) (kept b memB)

/-- Duplicates before and after the projection of a distinct SELECT. -/
theorem finish_map_dedupe (some_columns : p.columns.isSome) (absorbs : e.Absorbs p)
    (mergeable : e.Mergeable E p) (orderBy : List Expr) (base : List Record) :
    E.finish p.limit orderBy (p.distinct.getD false)
        ((dedupe e.distinct (base.filter (e.keeps E p))).map (E.project p.columns)) =
      E.finish p.limit orderBy (p.distinct.getD e.distinct)
        ((base.filter (e.keeps E p)).map (E.project p.columns)) := by
  cases own : e.distinct with
  | false => rfl
  | true =>
      cases chosen : p.distinct with
      | some distinct =>
          cases distinct with
          | false => exact absurd (absorbs.distinct chosen) (by rw [own]; decide)
          | true =>
              have projected := Rows.eraseDups_map_eraseDups (E.project p.columns)
                (base.filter (e.keeps E p))
              exact congrArg (fun rows => limited p.limit (E.order orderBy rows)) projected
      | none =>
          by_cases one : p.limit = some 1
          · have projected := Rows.eraseDups_map_eraseDups (E.project p.columns)
              (base.filter (e.keeps E p))
            rw [one]
            calc E.finish (some 1) orderBy false
                  ((dedupe true (base.filter (e.keeps E p))).map (E.project p.columns))
              _ = E.finish (some 1) orderBy true
                    ((dedupe true (base.filter (e.keeps E p))).map (E.project p.columns)) :=
                (E.finish_one orderBy true _).symm
              _ = E.finish (some 1) orderBy true
                    ((base.filter (e.keeps E p)).map (E.project p.columns)) :=
                congrArg (fun rows => limited (some 1) (E.order orderBy rows)) projected
          · have injective : ∀ a ∈ base.filter (e.keeps E p), ∀ b ∈ base.filter (e.keeps E p),
                E.project p.columns a = E.project p.columns b → a = b := by
              intro a memA b memB
              exact mergeable.distinct some_columns own chosen one a b (List.mem_filter.mp memA).2
                (List.mem_filter.mp memB).2
            have projected := Rows.eraseDups_map_of_injOn injective
            exact congrArg (fun rows => limited p.limit (E.order orderBy rows)) projected.symm

theorem rows_absorb_of_mergeable (id : RelationId) (absorbs : e.Absorbs p)
    (some_columns : p.columns.isSome) (mergeable : e.Mergeable E p) (base : List Record) :
    (e.absorb id p).rows E base = (p.wrap id (.select e)).rows E (e.rows E base) := by
  have columns : p.columns.or e.columns = p.columns := Option.or_of_isSome some_columns
  rw [rows_absorb id absorbs, rows_wrap_of_some id absorbs some_columns,
    map_order_of_agree some_columns mergeable, columns, ← finish_map_dedupe some_columns absorbs
      mergeable]
  simp only [Evaluation.finish, E.dedupe_order, E.order_order absorbs.orderBy]

theorem order_of_rows_absorb (id : RelationId) (absorbs : e.Absorbs p)
    (some_columns : p.columns.isSome) (positive : p.limit ≠ some 0)
    (same : ∀ base, (e.absorb id p).rows E base = (p.wrap id (.select e)).rows E (e.rows E base))
    {a b : Record} (keptA : e.keeps E p a) (keptB : e.keeps E p b)
    (different : E.project p.columns a ≠ E.project p.columns b) :
    E.Before e.orderBy a b ↔
      E.Before e.orderBy (E.project p.columns a) (E.project p.columns b) := by
  have columns : p.columns.or e.columns = p.columns := Option.or_of_isSome some_columns
  have heads := congrArg List.head? (same [a, b])
  have kept : [a, b].filter (e.keeps E p) = [a, b] := by
    rw [List.filter_cons_of_pos keptA, List.filter_cons_of_pos keptB, List.filter_nil]
  have apart : a ≠ b := fun equal => different (congrArg _ equal)
  rw [rows_absorb id absorbs, rows_wrap_of_some id absorbs some_columns, kept, columns] at heads
  rcases absorbs.orderBy with none | none
  · rw [none] at heads
    simp only [Evaluation.finish, head?_limited positive, E.order_nil, head?_dedupe,
      dedupe_pair _ apart, List.map_cons, List.map_nil, dedupe_pair _ different, List.isEmpty_nil,
      if_true, E.order_pair] at heads
    by_cases before : E.Before e.orderBy a b
    · rw [if_pos before] at heads
      refine iff_of_true before ?_
      by_contra after
      rw [if_neg after] at heads
      exact different (Option.some.inj heads).symm
    · rw [if_neg before] at heads
      refine iff_of_false before ?_
      intro after
      rw [if_pos after] at heads
      exact different (Option.some.inj heads)
  · rw [none]
    exact Iff.rfl

theorem distinct_of_rows_absorb (id : RelationId) (absorbs : e.Absorbs p)
    (some_columns : p.columns.isSome) (positive : p.limit ≠ some 0) (several : p.limit ≠ some 1)
    (own : e.distinct) (unset : p.distinct = none)
    (same : ∀ base, (e.absorb id p).rows E base = (p.wrap id (.select e)).rows E (e.rows E base))
    {a b : Record} (keptA : e.keeps E p a) (keptB : e.keeps E p b)
    (equal : E.project p.columns a = E.project p.columns b) : a = b := by
  by_contra apart
  have columns : p.columns.or e.columns = p.columns := Option.or_of_isSome some_columns
  have kept : [a, b].filter (e.keeps E p) = [a, b] := by
    rw [List.filter_cons_of_pos keptA, List.filter_cons_of_pos keptB, List.filter_nil]
  have single : dedupe true [E.project p.columns b, E.project p.columns b] =
      [E.project p.columns b] := by
    simp [dedupe, List.eraseDups_cons]
  have lengths := congrArg List.length (same [a, b])
  rw [rows_absorb id absorbs, rows_wrap_of_some id absorbs some_columns, kept, columns, own, unset,
    dedupe_pair _ apart, List.map_cons, List.map_singleton, equal, Option.getD_none,
    Option.getD_none, Evaluation.finish, Evaluation.finish, single] at lengths
  -- one row inside and two around
  rw [limited_of_length_le_two positive several, limited_of_length_le_two positive several,
    E.length_order, E.length_order, dedupe, if_neg Bool.false_ne_true, List.length_map,
    E.length_order] at lengths
  · cases lengths
  · rw [E.length_order, dedupe, if_neg Bool.false_ne_true, List.length_map, E.length_order]
    exact Nat.le_refl 2
  · rw [E.length_order]
    exact Nat.le_succ 1

theorem rows_absorb_iff (id : RelationId) (absorbs : e.Absorbs p) :
    (∀ base, (e.absorb id p).rows E base = (p.wrap id (.select e)).rows E (e.rows E base)) ↔
      p.limit = some 0 ∨ e.Mergeable E p := by
  cases columns : p.columns with
  | none =>
      rw [rows_absorb_iff_of_all id absorbs columns]
      refine or_congr_right ⟨fun filters => ⟨fun _ => filters, ?_, ?_⟩, fun m => m.filters columns⟩
      · intro some_columns
        rw [columns] at some_columns
        cases some_columns
      · intro some_columns
        rw [columns] at some_columns
        cases some_columns
  | some selected =>
      have some_columns : p.columns.isSome := by rw [columns]; rfl
      constructor
      · intro same
        by_cases zero : p.limit = some 0
        · exact .inl zero
        · refine .inr ⟨?_, ?_, ?_⟩
          · intro all
            rw [columns] at all
            cases all
          · intro _ own unset several a b keptA keptB
            exact distinct_of_rows_absorb id absorbs some_columns zero several own unset same
              keptA keptB
          · intro _ a b keptA keptB
            exact order_of_rows_absorb id absorbs some_columns zero same keptA keptB
      · rintro (zero | mergeable) base
        · rw [rows_absorb id absorbs, rows_wrap_of_some id absorbs some_columns, zero,
            E.finish_zero, E.finish_zero]
        · exact rows_absorb_of_mergeable id absorbs some_columns mergeable base

end SelectOf

theorem SelectOf.table_ne_self (e : Select) : e.table ≠ some (.select e) := by
  obtain ⟨id, table, columns, filters, orderBy, groupBy, having, limit, distinct⟩ := e
  intro same
  cases same

open Classical in
/-- The rows of tables where that of a SELECT has the given ones. -/
noncomputable def tablesOver (E : Evaluation) (e : Select) (base : List Record) :
    Option Relation → List Record :=
  fun t => if t = e.table then base else e.rows E base

/-- Laying clauses over a SELECT gives the rows of the SELECT with the clauses around it, whatever
rows its table has, exactly if the SELECT does not absorb them, leaves no row or is mergeable with
them. -/
theorem layer_rows_iff (E : Evaluation) (id : RelationId) (e : Select) (p : Clauses) :
    (∀ tables, tables (some (.select e)) = e.rows E (tables e.table) →
        (Relation.layer id (.select e) p).rows E tables =
          (Relation.select (p.wrap id (.select e))).rows E tables) ↔
      (e.absorbs p → p.limit = some 0 ∨ e.Mergeable E p) := by
  by_cases absorbs : e.absorbs p
  · have layered : Relation.layer id (.select e) p = .select (e.absorb id p) := by
      rw [Relation.layer, if_pos absorbs]
    rw [layered]
    simp only [absorbs, true_imp_iff]
    rw [← SelectOf.rows_absorb_iff id (SelectOf.absorbs_of_eq_true absorbs)]
    constructor
    · intro same base
      have table : tablesOver E e base e.table = base := if_pos rfl
      have self : tablesOver E e base (some (.select e)) = e.rows E base :=
        if_neg e.table_ne_self.symm
      have rows := same (tablesOver E e base) (by rw [self, table])
      change (e.absorb id p).rows E (tablesOver E e base e.table) =
        (p.wrap id (.select e)).rows E (tablesOver E e base (some (.select e))) at rows
      rw [table, self] at rows
      exact rows
    · intro same tables self
      change (e.absorb id p).rows E (tables e.table) =
        (p.wrap id (.select e)).rows E (tables (some (.select e)))
      rw [self]
      exact same (tables e.table)
  · have layered : Relation.layer id (.select e) p = .select (p.wrap id (.select e)) := by
      rw [Relation.layer, if_neg absorbs]
    rw [layered]
    exact ⟨fun _ absorbed => absurd absorbed absorbs, fun _ _ _ => rfl⟩

/-! A table of numbers, and a column that takes the name of another one. -/

namespace Shadowing

def number : Value → Int64
  | .int n => n
  | _ => 0

def value : Expr → Record → Value
  | .value v, _ => v
  | .column c, record => (record.lookup c.name).getD .null
  | .aliased e _, record => value e record
  | .binary .add [a, b], record => .int (number (value a record) + number (value b record))
  | .binary .gt [a, b], record => .bool (number (value b record) < number (value a record))
  | _, _ => .null

def evaluation : Evaluation where
  names := ⟨fun _ => none, fun _ _ => .ok .unknown⟩
  label _ := ""
  value := value
  value_column _ _ := rfl
  le a b := number a ≤ number b
  le_total a b := by
    simp only [decide_eq_true_eq]
    exact Int64.le_total _ _
  le_trans a b c := by
    simp only [decide_eq_true_eq]
    exact Int64.le_trans

def numbers : Relation := .table ⟨⟨0⟩, ⟨["t"], by decide, by decide⟩, none⟩

def successors : Select where
  id := ⟨1⟩
  table := some numbers
  columns := some [.aliased (.binary .add [.column ⟨numbers, "x"⟩, .value (.int 1)]) "x"]

def aboveOne (r : Relation) : Clauses where
  filters := [.binary .gt [.column ⟨r, "x"⟩, .value (.int 1)]]

def tables : Option Relation → List Record
  | some (.select _) => [[("x", .int 2)]]
  | _ => [[("x", .int 1)]]

end Shadowing

open Shadowing in
/-- A predicate on the successors of numbers is met by the successor of one, and not by one
itself: inside the SELECT it is the column of the table that it speaks of. -/
theorem layer_rows_ne_of_shadowing :
    let p := aboveOne (.select successors)
    tables (some (.select successors)) = successors.rows evaluation (tables successors.table) ∧
      (Relation.layer ⟨2⟩ (.select successors) p).rows evaluation tables = [] ∧
      (Relation.select (p.wrap ⟨2⟩ (.select successors))).rows evaluation tables =
        [[("x", .int 2)]] := by
  decide

end SqlQuery
