import SqlQuery.Proofs.Query.Names
import SqlQuery.Proofs.Render.Trace

/-!
The width of a set operation. Its two sides are compared by the columns of their schemas, and these
are fewer than the expressions of a select list if some of the names are taken for one. Main
statement: the comparison counts the expressions exactly if that makes no difference.
-/

namespace SqlQuery

/-- A relation with a select list and a schema. -/
structure Relation.Selects (store : Store) (r : Relation) (es : List Expr) (schema : Schema) :
    Prop where
  outputs : r.outputs? = some es
  schema : r.schema store = .ok (some schema)

/-- The names of a select list as they are compared. -/
def Expr.foldedNames (store : Store) (mode : CaseMode) (es : List Expr) : List (List Char) :=
  (es.filterMap (Expr.name store)).map mode.fold

namespace Relation

variable {store : Store} {r : Relation} {es : List Expr} {schema left right : Schema}

theorem Selects.size_eq (selects : r.Selects store es schema) :
    schema.size = (Expr.foldedNames store schema.mode es).toFinset.card :=
  (lists_outputs selects.outputs selects.schema).1.size_eq

theorem Selects.size_eq_length_iff (selects : r.Selects store es schema) :
    schema.size = es.length ↔ (Expr.foldedNames store schema.mode es).Nodup := by
  obtain ⟨lists, length⟩ := lists_outputs selects.outputs selects.schema
  rw [← length]
  exact lists.size_eq_length_iff

theorem schema_setOperation {o : SetOperation} (ofLeft : o.left.schema store = .ok (some left))
    (ofRight : o.right.schema store = .ok (some right)) :
    (Relation.setOperation o).schema store =
      if left.size = right.size then .ok (some left)
      else .error (.widthMismatch o.operator left.size right.size) := by
  obtain ⟨id, operator, l, r⟩ := o
  change l.schemaIn store.meaning = _ at ofLeft
  change r.schemaIn store.meaning = _ at ofRight
  rw [Relation.schema, schemaIn, ofLeft, ofRight]
  rfl

theorem widthError_iff {o : SetOperation} (ofLeft : o.left.schema store = .ok (some left))
    (ofRight : o.right.schema store = .ok (some right)) :
    (∃ m n, (Relation.setOperation o).schema store = .error (.widthMismatch o.operator m n)) ↔
      left.size ≠ right.size := by
  rw [schema_setOperation ofLeft ofRight]
  split
  · next same => simp [same]
  · next differ => exact ⟨fun _ => differ, fun _ => ⟨_, _, rfl⟩⟩

end Relation

/-- The error of a set operation tells whether its sides select equally many expressions if and only
if they do so exactly when they have equally many different names. The schema of a side has as many
columns as its select list has in the text if and only if the names in it are all different. -/
theorem SetOperation.counts_expressions_iff {store : Store} {o : SetOperation} {ls rs : List Expr}
    {left right : Schema} (ofLeft : o.left.Selects store ls left)
    (ofRight : o.right.Selects store rs right) :
    (((∃ m n, (Relation.setOperation o).schema store =
        .error (.widthMismatch o.operator m n)) ↔ ls.length ≠ rs.length) ↔
      ((Expr.foldedNames store left.mode ls).toFinset.card =
        (Expr.foldedNames store right.mode rs).toFinset.card ↔ ls.length = rs.length)) ∧
    ∀ links ctx draft texts final,
      (Expr.renderAll links ctx ls).outcome draft = (.ok texts, final) →
      (left.size = texts.length ↔ (Expr.foldedNames store left.mode ls).Nodup) := by
  constructor
  · rw [Relation.widthError_iff ofLeft.schema ofRight.schema, ofLeft.size_eq, ofRight.size_eq]
    exact not_iff_not
  · intro links ctx draft texts final written
    rw [Expr.length_renderAll ctx written]
    exact ofLeft.size_eq_length_iff

/-! Identifiers of orders and refunds, beside each other in a join or alone. -/

namespace Identifiers

def orders : Relation :=
  .table ⟨⟨0⟩, .orders, some { columns := [("id", .integer), ("amount", .integer)] }⟩

def refunds : Relation :=
  .table ⟨⟨1⟩, .refunds, some { columns := [("Id", .integer)] }⟩

def pair : List Expr := [.column ⟨orders, "id"⟩, .column ⟨refunds, "Id"⟩]

def pairs : Relation :=
  .join ⟨⟨2⟩, [orders, refunds], .inner, [.binary .eq pair], some pair⟩

def single : List Expr := [.column ⟨orders, "id"⟩]

def singles : Relation :=
  .select { id := ⟨3⟩, table := some orders, columns := some single }

def entry : List Expr := [.column ⟨orders, "id"⟩, .column ⟨orders, "amount"⟩]

def entries : Relation :=
  .select { id := ⟨4⟩, table := some orders, columns := some entry }

end Identifiers

open Identifiers in
theorem counts_expressions_of_entries :
    ∃ left right, entries.Selects {} entry left ∧ singles.Selects {} single right ∧
      (∃ m n, (Relation.setOperation ⟨⟨5⟩, .union, entries, singles⟩).schema {} =
        .error (.widthMismatch .union m n)) ∧ entry.length ≠ single.length := by
  have ofLeft : entries.Selects {} entry _ := ⟨rfl, rfl⟩
  have ofRight : singles.Selects {} single _ := ⟨rfl, rfl⟩
  have counted := SetOperation.counts_expressions_iff (o := ⟨⟨5⟩, .union, entries, singles⟩) ofLeft
    ofRight
  have differ : entry.length ≠ single.length := by decide
  exact ⟨_, _, ofLeft, ofRight, (counted.1.mpr (by decide)).mpr differ, differ⟩

open Identifiers in
/-- Two columns of one name count as one, so a pair fits a single column and no other pair. -/
theorem expressions_miscounted_of_pairs :
    ∃ left right other, pairs.Selects {} pair left ∧ singles.Selects {} single right ∧
      entries.Selects {} entry other ∧
      (pair.length ≠ single.length ∧ ¬ ∃ m n,
        (Relation.setOperation ⟨⟨5⟩, .union, pairs, singles⟩).schema {} =
          .error (.widthMismatch .union m n)) ∧
      pair.length = entry.length ∧ ∃ m n,
        (Relation.setOperation ⟨⟨5⟩, .union, pairs, entries⟩).schema {} =
          .error (.widthMismatch .union m n) := by
  have ofLeft : pairs.Selects {} pair _ := ⟨rfl, rfl⟩
  have ofRight : singles.Selects {} single _ := ⟨rfl, rfl⟩
  have ofOther : entries.Selects {} entry _ := ⟨rfl, rfl⟩
  refine ⟨_, _, _, ofLeft, ofRight, ofOther, ⟨by decide, ?_⟩, rfl, 1, 2, rfl⟩
  rintro ⟨m, n, failed⟩
  cases failed

end SqlQuery
