import SqlQuery.Proofs.Query.Lookup
import SqlQuery.Proofs.Query.Names
import SqlQuery.Proofs.Render.Outcome

/-!
Columns and schemas. Main statement: the columns that a relation gives by name are those that its
schema lists, with the types that the schema has for them, whatever the relation is.
-/

namespace SqlQuery

theorem ColumnOf.type_of_schema {store : Store} {c : Column} {schema : Option Schema}
    (given : c.source.schema store = .ok schema) :
    c.type store = Schema.columnType schema c.source.label c.name := by
  rw [ColumnOf.type, given]
  rfl

namespace Relation

variable {store : Store} {r : Relation} {schema : Schema} {name : String}

theorem column_of_contains (given : r.schema store = .ok (some schema))
    (listed : schema.contains name = true) :
    ∃ key type, schema.getKey? name = some key ∧ schema.get? name = some type ∧
      r.column store name = .ok ⟨r, key⟩ ∧ ColumnOf.type store ⟨r, key⟩ = .ok type := by
  obtain ⟨key, type, spelled, typed⟩ := Schema.exists_of_contains listed
  refine ⟨key, type, spelled, typed, ?_, ?_⟩
  · rw [column_eq_of_schema given, Schema.spelling, spelled]
    rfl
  · -- the column is looked up again, by the spelling that the schema gave it
    have again : schema.get? key = some type := by
      rw [Schema.get?, Schema.find?_getKey? spelled, ← Schema.get?, typed]
    rw [ColumnOf.type_of_schema given]
    simp only [Schema.columnType, again]

theorem column_of_not_contains (given : r.schema store = .ok (some schema))
    (missing : schema.contains name = false) :
    r.column store name = .error (.unknownColumn r.shown.label name) := by
  have unspelled : schema.getKey? name = none := by
    rw [Schema.getKey?, Option.map_eq_none_iff]
    exact Option.isNone_iff_eq_none.mp (Option.isSome_eq_false_iff.mp missing)
  rw [column_eq_of_schema given, Schema.spelling, unspelled]
  rfl

theorem column_of_no_schema (given : r.schema store = .ok none) :
    r.column store name = .ok ⟨r, name⟩ ∧
      ColumnOf.type store ⟨r, name⟩ = .error (.schemaRequired r.label) := by
  constructor
  · rw [column_eq_of_schema given]
    rfl
  · rw [ColumnOf.type_of_schema given]
    rfl

/-- A relation with a schema has exactly the columns that the schema lists, spelled and typed as
there; one without a schema has every column, and none of them has a type. -/
theorem column_agrees_with_schema (store : Store) (r : Relation) (name : String) :
    (∀ schema, r.schema store = .ok (some schema) →
      ((∃ c, r.column store name = .ok c) ↔ schema.contains name = true) ∧
      (∀ c, r.column store name = .ok c → schema.getKey? name = some c.name ∧
        ∃ type, schema.get? name = some type ∧ c.type store = .ok type) ∧
      (schema.contains name = false →
        r.column store name = .error (.unknownColumn r.shown.label name))) ∧
    (r.schema store = .ok none → ∃ c, r.column store name = .ok c ∧ c.name = name ∧
      c.type store = .error (.schemaRequired r.label)) := by
  constructor
  · intro schema given
    cases listed : schema.contains name with
    | true =>
        obtain ⟨key, type, spelled, typed, found, typedAgain⟩ := column_of_contains given listed
        refine ⟨⟨fun _ => rfl, fun _ => ⟨_, found⟩⟩, ?_, Bool.noConfusion⟩
        intro c given
        cases found.symm.trans given
        exact ⟨spelled, type, typed, typedAgain⟩
    | false =>
        have failed : r.column store name = _ := column_of_not_contains given listed
        simp [failed]
  · intro given
    obtain ⟨found, untyped⟩ := column_of_no_schema given
    exact ⟨_, found, rfl, untyped⟩

end Relation

/-! Orders whose columns are shown through an alias, and refunds of which nothing is known. -/

namespace ShownOrders

def orders : Relation :=
  .table ⟨⟨0⟩, .orders, some { columns := [("Id", .integer), ("Note", .text)] }⟩

def rows : Relation :=
  .select { id := ⟨2⟩, table := some (.aliased ⟨⟨1⟩, orders, "o"⟩) }

def refunds : Relation :=
  .select { id := ⟨4⟩, table := some (.table ⟨⟨3⟩, .refunds, none⟩) }

end ShownOrders

open ShownOrders in
theorem column_agrees_with_schema_of_orders :
    (∃ schema, rows.schema {} = .ok (some schema) ∧ schema.contains "NOTE" = true ∧
      schema.contains "total" = false ∧
      (∃ c, rows.column {} "NOTE" = .ok c ∧ c.name = "Note" ∧ c.type {} = .ok .text) ∧
      rows.column {} "total" = .error (.unknownColumn "o" "total")) ∧
    refunds.schema {} = .ok none ∧
    ∃ c, refunds.column {} "total" = .ok c ∧ c.name = "total" ∧
      c.type {} = .error (.schemaRequired "<select>") := by
  have given : rows.schema {} = .ok (some _) := rfl
  have none : refunds.schema {} = .ok none := rfl
  have note := (Relation.column_agrees_with_schema {} rows "NOTE").1 _ given
  have total := (Relation.column_agrees_with_schema {} rows "total").1 _ given
  obtain ⟨c, found⟩ := note.1.mpr rfl
  obtain ⟨spelled, type, typed, typedAgain⟩ := note.2.1 c found
  cases typed
  exact ⟨⟨_, given, rfl, rfl, ⟨c, found, (Option.some.inj spelled).symm, typedAgain⟩,
    total.2.2 rfl⟩, none,
    (Relation.column_agrees_with_schema {} refunds "total").2 none⟩

end SqlQuery
