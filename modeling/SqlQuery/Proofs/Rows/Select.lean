import SqlQuery.Builder.Relation
import SqlQuery.Proofs.Rows.Ordering

/-!
The rows of a SELECT that does not group: those of its table that meet all predicates, with the
columns that are selected, without duplicates if it is distinct, in order, and only as many as the
limit says.
-/

namespace SqlQuery

abbrev Record := List (String × Value)

/-- What expressions come to on a row, and how values are ordered. -/
structure Evaluation where
  names : Interpretation
  /-- The name of a column that has none by itself. -/
  label : Expr → String
  value : Expr → Record → Value
  value_column : ∀ (c : Column) (record : Record),
    value (.column c) record = (record.lookup c.name).getD .null
  le : Value → Value → Bool
  le_total : ∀ a b, le a b ∨ le b a
  le_trans : ∀ a b c, le a b → le b c → le a c

namespace Evaluation

variable (E : Evaluation)

def satisfies (filters : List Expr) (record : Record) : Bool :=
  filters.all fun e => E.value e record == .bool true

def project : Option (List Expr) → Record → Record
  | none, record => record
  | some columns, record =>
      columns.map fun e => ((e.nameIn E.names).getD (E.label e), E.value e record)

/-- Whether the keys of one row may come before those of another: the first ones that differ
decide. -/
def keysLe : List Value → List Value → Bool
  | [], _ => true
  | _ :: _, [] => false
  | a :: as, b :: bs => E.le a b && (!E.le b a || keysLe as bs)

def Before (orderBy : List Expr) (a b : Record) : Prop :=
  E.keysLe (orderBy.map (E.value · a)) (orderBy.map (E.value · b))

instance (orderBy : List Expr) : DecidableRel (E.Before orderBy) :=
  fun _ _ => inferInstanceAs (Decidable (E.keysLe _ _ = true))

def order (orderBy : List Expr) (records : List Record) : List Record :=
  records.insertionSort (E.Before orderBy)

end Evaluation

def dedupe (distinct : Bool) (records : List Record) : List Record :=
  if distinct then records.eraseDups else records

def limited (limit : Option UInt64) (records : List Record) : List Record :=
  match limit with
  | none => records
  | some n => records.take n.toNat

/-- The last steps of a SELECT. -/
def Evaluation.finish (E : Evaluation) (limit : Option UInt64) (orderBy : List Expr)
    (distinct : Bool) (records : List Record) : List Record :=
  limited limit (E.order orderBy (dedupe distinct records))

def SelectOf.rows (E : Evaluation) (s : Select) (base : List Record) : List Record :=
  E.finish s.limit s.orderBy s.distinct
    ((base.filter (E.satisfies s.filters)).map (E.project s.columns))

/-- The rows of a relation for those of the tables. -/
def Relation.rows (E : Evaluation) (tables : Option Relation → List Record) :
    Relation → List Record
  | .select s => s.rows E (tables s.table)
  | r => tables (some r)

namespace Evaluation

variable (E : Evaluation)

theorem satisfies_append (first second : List Expr) (record : Record) :
    E.satisfies (first ++ second) record =
      (E.satisfies first record && E.satisfies second record) :=
  List.all_append

theorem map_project_none (records : List Record) : records.map (E.project none) = records :=
  List.map_id' records

theorem keysLe_total (as bs : List Value) : E.keysLe as bs ∨ E.keysLe bs as := by
  induction as generalizing bs with
  | nil => exact .inl rfl
  | cons a as ih =>
      cases bs with
      | nil => exact .inr rfl
      | cons b bs =>
          have first := E.le_total a b
          have rest := ih bs
          simp only [keysLe, Bool.and_eq_true, Bool.or_eq_true, Bool.not_eq_true']
          grind

theorem keysLe_trans {as bs cs : List Value} (first : E.keysLe as bs) (second : E.keysLe bs cs) :
    E.keysLe as cs := by
  induction as generalizing bs cs with
  | nil => rfl
  | cons a as ih =>
      cases bs with
      | nil => cases first
      | cons b bs =>
          cases cs with
          | nil => cases second
          | cons c cs =>
              have forward := E.le_trans a b c
              have back := E.le_trans c a b
              have back' := E.le_trans b c a
              have rest := @ih bs cs
              simp only [keysLe, Bool.and_eq_true, Bool.or_eq_true, Bool.not_eq_true'] at *
              grind

instance (orderBy : List Expr) : Std.Total (E.Before orderBy) :=
  ⟨fun _ _ => E.keysLe_total _ _⟩

instance (orderBy : List Expr) : IsTrans Record (E.Before orderBy) :=
  ⟨fun _ _ _ => E.keysLe_trans⟩

theorem order_nil (records : List Record) : E.order [] records = records :=
  List.Pairwise.insertionSort_eq (List.pairwise_of_forall fun _ _ => rfl)

theorem length_order (orderBy : List Expr) (records : List Record) :
    (E.order orderBy records).length = records.length :=
  List.length_insertionSort _ records

theorem order_pair (orderBy : List Expr) (a b : Record) :
    E.order orderBy [a, b] = if E.Before orderBy a b then [a, b] else [b, a] :=
  rfl

theorem filter_order (orderBy : List Expr) (p : Record → Bool) (records : List Record) :
    (E.order orderBy records).filter p = E.order orderBy (records.filter p) := by
  rw [order, Rows.filter_insertionSort, order]

theorem dedupe_order (distinct : Bool) (orderBy : List Expr) (records : List Record) :
    dedupe distinct (E.order orderBy records) = E.order orderBy (dedupe distinct records) := by
  cases distinct with
  | false => rfl
  | true => exact Rows.eraseDups_insertionSort (r := E.Before orderBy) records

/-- Ordering by one list of expressions and then by another, where only one of them is there. -/
theorem order_order {first second : List Expr} (single : second = [] ∨ first = [])
    (records : List Record) :
    E.order second (E.order first records) =
      E.order (if second.isEmpty then first else second) records := by
  rcases single with rfl | rfl
  · exact E.order_nil _
  · rw [E.order_nil]
    cases second <;> rfl

end Evaluation

theorem filter_dedupe (distinct : Bool) (p : Record → Bool) (records : List Record) :
    (dedupe distinct records).filter p = dedupe distinct (records.filter p) := by
  cases distinct with
  | false => rfl
  | true => exact (Rows.eraseDups_filter p records).symm

theorem dedupe_dedupe (first second : Bool) (records : List Record) :
    dedupe second (dedupe first records) = dedupe (second || first) records := by
  cases first with
  | false => cases second <;> rfl
  | true =>
      cases second with
      | false => rfl
      | true => exact Rows.eraseDups_idem records

theorem head?_dedupe (distinct : Bool) (records : List Record) :
    (dedupe distinct records).head? = records.head? := by
  cases distinct with
  | false => rfl
  | true => exact Rows.head?_eraseDups records

theorem dedupe_pair {a b : Record} (distinct : Bool) (different : a ≠ b) :
    dedupe distinct [a, b] = [a, b] := by
  cases distinct with
  | false => rfl
  | true => simp [dedupe, List.eraseDups_cons, Ne.symm different]

theorem mem_of_mem_dedupe {distinct : Bool} {record : Record} {records : List Record}
    (mem : record ∈ dedupe distinct records) : record ∈ records := by
  cases distinct with
  | false => exact mem
  | true => exact (Rows.eraseDups_sublist records).subset mem

theorem limited_zero (records : List Record) : limited (some 0) records = [] :=
  rfl

theorem limited_one (records : List Record) : limited (some 1) records = records.head?.toList := by
  cases records <;> rfl

theorem limited_of_length_le_two {limit : Option UInt64} (positive : limit ≠ some 0)
    (several : limit ≠ some 1) {records : List Record} (few : records.length ≤ 2) :
    limited limit records = records := by
  cases limit with
  | none => rfl
  | some n =>
      have notZero : n.toNat ≠ 0 := fun zero => positive (congrArg some (UInt64.toNat_inj.mp zero))
      have notOne : n.toNat ≠ 1 := fun one => several (congrArg some (UInt64.toNat_inj.mp one))
      apply List.take_of_length_le
      omega

theorem head?_limited {limit : Option UInt64} (positive : limit ≠ some 0) (records : List Record) :
    (limited limit records).head? = records.head? := by
  cases limit with
  | none => rfl
  | some n =>
      have notZero : n.toNat ≠ 0 := fun zero => positive (congrArg some (UInt64.toNat_inj.mp zero))
      cases records with
      | nil => simp [limited]
      | cons record records =>
          obtain ⟨m, count⟩ := Nat.exists_eq_succ_of_ne_zero notZero
          simp [limited, count]

end SqlQuery
