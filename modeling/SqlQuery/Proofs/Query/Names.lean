import Mathlib.Data.Finset.Dedup
import SqlQuery.Proofs.Query.Interpretation

/-!
The names of columns. A schema has one column for all the names that it takes for one, so the schema
of a select list has as many columns as the list has names to tell apart.
-/

namespace SqlQuery

/-- What is compared of a name. -/
def CaseMode.fold : CaseMode → String → List Char
  | sensitive, name => name.toList
  | insensitive, name => name.toList.map Char.toLower

theorem CaseMode.same_iff {mode : CaseMode} {a b : String} :
    mode.same a b = true ↔ mode.fold a = mode.fold b := by
  cases mode with
  | sensitive => rw [same, fold, fold, beq_iff_eq, String.toList_inj]
  | insensitive => rw [same, fold, fold, beq_iff_eq]

namespace Schema

variable {schema : Schema} {name key other : String}

/-- The names of a schema as they are compared. -/
def folded (schema : Schema) : List (List Char) :=
  schema.names.map schema.mode.fold

theorem length_folded (schema : Schema) : schema.folded.length = schema.size := by
  rw [folded, names, List.map_map, List.length_map, size]

/-! Looking a name up. -/

theorem contains_iff : schema.contains name = true ↔ schema.mode.fold name ∈ schema.folded := by
  simp only [contains, find?, List.find?_isSome, CaseMode.same_iff, folded, names, List.mem_map]
  constructor
  · rintro ⟨column, listed, same⟩
    exact ⟨column.1, ⟨column, listed, rfl⟩, same⟩
  · rintro ⟨_, ⟨column, listed, rfl⟩, same⟩
    exact ⟨column, listed, same⟩

theorem find?_congr (same : schema.mode.fold name = schema.mode.fold other) :
    schema.find? name = schema.find? other := by
  have alike : ∀ key, schema.mode.same key name = schema.mode.same key other := by
    intro key
    rw [Bool.eq_iff_iff, CaseMode.same_iff, CaseMode.same_iff, same]
  simp only [find?, alike]

theorem fold_getKey? (found : schema.getKey? name = some key) :
    schema.mode.fold key = schema.mode.fold name := by
  obtain ⟨column, given, rfl⟩ := Option.map_eq_some_iff.mp found
  rw [find?] at given
  have same := List.find?_some given
  exact CaseMode.same_iff.mp same

theorem find?_getKey? (found : schema.getKey? name = some key) :
    schema.find? key = schema.find? name :=
  find?_congr (fold_getKey? found)

theorem exists_of_contains (listed : schema.contains name = true) :
    ∃ key type, schema.getKey? name = some key ∧ schema.get? name = some type := by
  obtain ⟨column, found⟩ := Option.isSome_iff_exists.mp listed
  exact ⟨column.1, column.2, by rw [getKey?, found]; rfl, by rw [get?, found]; rfl⟩

/-! Adding a name. -/

theorem names_insertInto (mode : CaseMode) (name : String) (type : SemanticType)
    (columns : List (String × SemanticType)) :
    (insertInto mode name type columns).map Prod.fst =
      if (columns.find? fun column => mode.same column.1 name).isSome then columns.map Prod.fst
      else columns.map Prod.fst ++ [name] := by
  induction columns with
  | nil => rfl
  | cons column rest ih =>
      obtain ⟨key, old⟩ := column
      rw [insertInto]
      split
      · next same =>
          -- the column keeps its key, and only the type is replaced
          simp only [List.find?_cons, same]
          rfl
      · next differ =>
          simp only [List.find?_cons, differ, List.map_cons, ih]
          split
          · rfl
          · rfl

theorem names_insert (schema : Schema) (name : String) (type : SemanticType) :
    (schema.insert name type).names =
      if schema.contains name then schema.names else schema.names ++ [name] :=
  names_insertInto schema.mode name type schema.columns

theorem folded_insert (schema : Schema) (name : String) (type : SemanticType) :
    (schema.insert name type).folded =
      if schema.mode.fold name ∈ schema.folded then schema.folded
      else schema.folded ++ [schema.mode.fold name] := by
  have mode : (schema.insert name type).mode = schema.mode := rfl
  rw [folded, names_insert, mode, apply_ite (List.map schema.mode.fold), List.map_append]
  simp only [contains_iff]
  rfl

theorem mem_folded_insert {type : SemanticType} {word : List Char} :
    word ∈ (schema.insert name type).folded ↔
      word ∈ schema.folded ∨ word = schema.mode.fold name := by
  rw [folded_insert]
  split
  · next listed =>
      constructor
      · exact .inl
      · rintro (old | rfl)
        · exact old
        · exact listed
  · rw [List.mem_append, List.mem_singleton]

theorem nodup_folded_insert {type : SemanticType} (distinct : schema.folded.Nodup) :
    (schema.insert name type).folded.Nodup := by
  rw [folded_insert]
  split
  · exact distinct
  · next new =>
      rw [← List.concat_eq_append]
      exact distinct.concat new

end Schema

/-! Select lists. -/

/-- The schema has the names of the list, each once. -/
structure Schema.Lists (schema : Schema) (names : List String) : Prop where
  distinct : schema.folded.Nodup
  same : ∀ word, word ∈ schema.folded ↔ word ∈ names.map schema.mode.fold

namespace Schema.Lists

variable {schema : Schema} {names : List String}

theorem empty (mode : CaseMode) : Lists { mode } [] :=
  ⟨List.nodup_nil, fun _ => .rfl⟩

theorem insert (lists : schema.Lists names) (name : String) (type : SemanticType) :
    (schema.insert name type).Lists (names ++ [name]) := by
  refine ⟨nodup_folded_insert lists.distinct, ?_⟩
  intro word
  rw [mem_folded_insert, lists.same word, List.map_append, List.mem_append, List.map_singleton,
    List.mem_singleton]
  rfl

theorem contains (lists : schema.Lists names) {name : String} (listed : name ∈ names) :
    schema.contains name = true :=
  contains_iff.mpr ((lists.same _).mpr (List.mem_map_of_mem listed))

theorem size_eq (lists : schema.Lists names) :
    schema.size = (names.map schema.mode.fold).toFinset.card := by
  have same : schema.folded.toFinset = (names.map schema.mode.fold).toFinset := by
    ext word
    rw [List.mem_toFinset, List.mem_toFinset, lists.same]
  rw [← same, List.toFinset_card_of_nodup lists.distinct, length_folded]

theorem size_eq_length_iff (lists : schema.Lists names) :
    schema.size = names.length ↔ (names.map schema.mode.fold).Nodup := by
  have length : (names.map schema.mode.fold).length = names.length := List.length_map _
  rw [lists.size_eq, ← length]
  constructor
  · intro whole
    rw [List.card_toFinset] at whole
    rw [← List.dedup_eq_self]
    exact (List.dedup_sublist _).eq_of_length whole
  · exact List.toFinset_card_of_nodup

end Schema.Lists

namespace Expr

variable {env : Interpretation} {schema result : Schema} {es : List Expr}

theorem lists_columnsIn {names : List String} (lists : schema.Lists names) {position : Nat}
    (given : columnsIn env schema position es = .ok result) :
    result.Lists (names ++ es.filterMap (nameIn env)) ∧
      (es.filterMap (nameIn env)).length = es.length ∧ result.mode = schema.mode := by
  induction es generalizing schema names position with
  | nil =>
      cases given
      exact ⟨by rwa [List.filterMap_nil, List.append_nil], rfl, rfl⟩
  | cons e rest ih =>
      rw [columnsIn] at given
      split at given
      · cases given
      · next name named =>
          obtain ⟨type, _, given⟩ := Except.bind_eq_ok.mp given
          obtain ⟨listed, length, mode⟩ := ih (lists.insert name type.columnType) given
          rw [List.filterMap_cons_some named, List.length_cons, List.length_cons, length]
          rw [List.append_assoc] at listed
          exact ⟨listed, rfl, mode⟩

theorem columnsIn_append (env : Interpretation) (schema : Schema) (position : Nat)
    (es more : List Expr) :
    columnsIn env schema position (es ++ more) =
      (do columnsIn env (← columnsIn env schema position es) (position + es.length) more) := by
  induction es generalizing schema position with
  | nil => rfl
  | cons e rest ih =>
      rw [List.cons_append, columnsIn, columnsIn]
      split
      · rfl
      · simp only [ih, bind_assoc, List.length_cons, Nat.add_assoc, Nat.add_comm 1]

end Expr

namespace Relation

/-- The expressions that a relation selects, if it does not show all columns of what is under it. -/
def outputs? : Relation → Option (List Expr)
  | join j => j.columns
  | grouping g => some g.outputs
  | select s => s.columns
  | _ => none

theorem exists_selectedIn {r : Relation} {es : List Expr} (listed : r.outputs? = some es)
    (env : Interpretation) :
    ∃ base : Except Error (Option Schema), r.schemaIn env = base >>= Expr.selectedIn env es := by
  cases r with
  | join j =>
      obtain ⟨id, sources, kind, on, columns⟩ := j
      cases listed
      cases sources with
      | nil => exact ⟨.ok none, by rw [schemaIn]; rfl⟩
      | cons first rest => exact ⟨_, schemaIn_join env id first rest kind on es⟩
  | grouping g =>
      obtain ⟨id, table, keys, values, having⟩ := g
      cases listed
      refine ⟨table.schemaIn env, ?_⟩
      rw [schemaIn]
      congr 1
      funext base
      cases base with
      | none => rfl
      | some base =>
          simp only [Expr.selectedIn, GroupingOf.outputs, Expr.columnsIn_append, bind_assoc,
            Nat.add_comm 1]
  | select s =>
      cases table : s.table with
      | none =>
          obtain ⟨_, _, _, _, _, _, _, _, _⟩ := s
          cases table
          exact ⟨.ok none, by rw [schemaIn]; rfl⟩
      | some source => exact ⟨_, schemaIn_select env table listed⟩
  | _ => cases listed

/-- Every expression of a select list with a schema has a name, and the schema has each of the names
once. -/
theorem lists_outputs {r : Relation} {es : List Expr} {schema : Schema} {store : Store}
    (listed : r.outputs? = some es) (given : r.schema store = .ok (some schema)) :
    schema.Lists (es.filterMap (Expr.name store)) ∧
      (es.filterMap (Expr.name store)).length = es.length := by
  obtain ⟨base, selected⟩ := exists_selectedIn listed store.meaning
  rw [Relation.schema, selected] at given
  obtain ⟨base, -, given⟩ := Except.bind_eq_ok.mp given
  cases base with
  | none => cases given
  | some base =>
      obtain ⟨result, columns, same⟩ := Except.bind_eq_ok.mp given
      cases same
      obtain ⟨lists, length, -⟩ := Expr.lists_columnsIn (.empty base.mode) columns
      exact ⟨lists, length⟩

end Relation

end SqlQuery
