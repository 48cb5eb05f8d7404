import SqlQuery.Proofs.Query.Interpretation
import SqlQuery.Proofs.Query.Resolved

/-!
Columns by name: the relation that a column belongs to, and the spelling of its name. Once a
relation has given one column, later bindings change none of its columns.
-/

namespace SqlQuery

/-- The spelling of a column's name in a schema; without a schema every spelling is right. -/
def Schema.spelling (schema : Option Schema) (name : String) : Option String :=
  match schema with
  | none => some name
  | some schema => schema.getKey? name

namespace Relation

variable {store later : Store} {r : Relation} {name : String} {c : Column}

theorem joinedColumn_source {sources : List (Relation × Option Schema)}
    (found : joinedColumn sources name = .ok c) : c.source ∈ sources.map Prod.fst := by
  rw [joinedColumn] at found
  split at found
  · next column only =>
      cases found
      have among : c ∈ [c] := List.mem_singleton_self c
      rw [← only, List.mem_filterMap] at among
      obtain ⟨⟨source, schema⟩, listed, key⟩ := among
      obtain ⟨_, _, rfl⟩ := Option.map_eq_some_iff.mp key
      exact List.mem_map_of_mem listed
  · next source _ only =>
      cases found
      have among : source ∈ [source] := List.mem_singleton_self source
      rw [← only, List.mem_map] at among
      obtain ⟨⟨_, schema⟩, listed, rfl⟩ := among
      exact List.mem_map_of_mem (List.mem_filter.mp listed).1
  · cases found
  · cases found

variable (store) in
/-- The sources of a join with their schemas. -/
def schemas (sources : List Relation) : Except Error (List (Relation × Option Schema)) :=
  sources.mapM fun source => return (source, ← source.schema store)

theorem schemas_cons_eq_ok {source : Relation} {rest : List Relation}
    {pairs : List (Relation × Option Schema)} :
    schemas store (source :: rest) = .ok pairs ↔
      ∃ schema others, source.schema store = .ok schema ∧ schemas store rest = .ok others ∧
        pairs = (source, schema) :: others := by
  rw [schemas, List.mapM_cons]
  constructor
  · intro found
    obtain ⟨pair, first, found⟩ := Except.bind_eq_ok.mp found
    obtain ⟨schema, given, same⟩ := Except.bind_eq_ok.mp first
    obtain ⟨others, rest, result⟩ := Except.bind_eq_ok.mp found
    cases same
    cases result
    exact ⟨schema, others, given, rest, rfl⟩
  · rintro ⟨schema, others, given, rest, rfl⟩
    rw [schemas] at rest
    rw [given, rest]
    rfl

theorem map_fst_schemas {sources : List Relation} {pairs : List (Relation × Option Schema)}
    (found : schemas store sources = .ok pairs) : pairs.map Prod.fst = sources := by
  induction sources generalizing pairs with
  | nil =>
      cases found
      rfl
  | cons source rest ih =>
      obtain ⟨schema, others, _, inRest, rfl⟩ := schemas_cons_eq_ok.mp found
      rw [List.map_cons, ih inRest]

theorem listed_eq_ok :
    column.listed store r name = .ok c ↔
      ∃ schema key, r.schema store = .ok schema ∧ Schema.spelling schema name = some key ∧
        c = ⟨r, key⟩ := by
  rw [column.listed, Except.bind_eq_ok]
  apply exists_congr
  intro schema
  cases schema with
  | none =>
      simp only [Schema.spelling, pure, Except.pure, Except.ok.injEq, Option.some.injEq]
      grind
  | some schema =>
      simp only [Schema.spelling]
      cases schema.getKey? name with
      | none => simp [throw, throwThe, MonadExceptOf.throw]
      | some key => simp [pure, Except.pure, eq_comm]

/-- A relation lists its columns in its schema, except for a join and a SELECT that take all the
columns of what is under them. -/
theorem open_or_listed (r : Relation) :
    (∃ j, r = .join j ∧ j.columns = none) ∨ (∃ s, r = .select s ∧ s.columns = none) ∨
      ∀ store name, r.column store name = column.listed store r name := by
  cases r with
  | join j =>
      obtain ⟨id, sources, kind, on, columns⟩ := j
      cases columns with
      | none => exact .inl ⟨_, rfl, rfl⟩
      | some columns => exact .inr (.inr fun _ _ => rfl)
  | select s =>
      obtain ⟨id, source, columns, _, _, _, _, _, _⟩ := s
      cases columns with
      | none => exact .inr (.inl ⟨_, rfl, rfl⟩)
      | some columns => exact .inr (.inr fun _ _ => rfl)
  | _ => exact .inr (.inr fun _ _ => rfl)

theorem column_join {j : Join} (all : j.columns = none) (store : Store) (name : String) :
    (Relation.join j).column store name = (do joinedColumn (← schemas store j.sources) name) := by
  obtain ⟨id, sources, kind, on, columns⟩ := j
  cases all
  rfl

theorem column_select {s : Select} (all : s.columns = none) (store : Store) (name : String) :
    (Relation.select s).column store name =
      match s.table with
      | none => .ok ⟨.select s, name⟩
      | some inner => do return ⟨.select s, (← inner.column store name).name⟩ := by
  obtain ⟨id, source, columns, _, _, _, _, _, _⟩ := s
  cases all
  cases source <;> rfl

/-- A column belongs to the relation that it was asked of, or to one of the joined ones. -/
theorem column_source (found : r.column store name = .ok c) :
    c.source = r ∨ c.source ∈ r.sources := by
  rcases r.open_or_listed with ⟨j, rfl, all⟩ | ⟨s, rfl, all⟩ | listed
  · rw [column_join all, Except.bind_eq_ok] at found
    obtain ⟨pairs, given, found⟩ := found
    have joined := joinedColumn_source found
    rw [map_fst_schemas given] at joined
    exact .inr joined
  · left
    rw [column_select all] at found
    cases table : s.table with
    | none =>
        rw [table] at found
        cases found
        rfl
    | some inner =>
        rw [table, Except.bind_eq_ok] at found
        obtain ⟨_, _, result⟩ := found
        cases result
        rfl
  · rw [listed, listed_eq_ok] at found
    obtain ⟨_, _, _, _, rfl⟩ := found
    exact .inl rfl

/-! Later bindings. -/

theorem schema_kept (within : store.Within later) (r : Relation) :
    (r.schema store).KeptIn (r.schema later) :=
  r.schemaIn_kept within.meaning

theorem schemas_kept (within : store.Within later) (sources : List Relation) :
    (schemas store sources).KeptIn (schemas later sources) := by
  induction sources with
  | nil => exact .refl _
  | cons source rest ih =>
      intro pairs found
      obtain ⟨schema, others, given, inRest, rfl⟩ := schemas_cons_eq_ok.mp found
      exact schemas_cons_eq_ok.mpr
        ⟨schema, others, source.schema_kept within schema given, ih others inRest, rfl⟩

theorem listed_stable (within : store.Within later) (found : column.listed store r name = .ok c)
    (other : String) : column.listed later r other = column.listed store r other := by
  obtain ⟨schema, _, given, _, _⟩ := listed_eq_ok.mp found
  rw [column.listed, column.listed, given, r.schema_kept within schema given]

/-- Induction through the SELECTs that stand around a relation. -/
theorem nested_induction {motive : Relation → Prop}
    (step : ∀ r, (∀ s inner, r = .select s → s.table = some inner → motive inner) → motive r)
    (r : Relation) : motive r := by
  induction size : sizeOf r using Nat.strongRecOn generalizing r with
  | ind n ih =>
      subst size
      apply step
      rintro ⟨_, _, _, _, _, _, _, _, _⟩ inner rfl rfl
      apply ih (sizeOf inner) _ inner rfl
      simp only [Relation.select.sizeOf_spec, SelectOf.mk.sizeOf_spec, Option.some.sizeOf_spec]
      omega

theorem column_stable (within : store.Within later) (found : r.column store name = .ok c)
    (other : String) : r.column later other = r.column store other := by
  induction r using nested_induction generalizing c with
  | step r ih =>
      rcases r.open_or_listed with ⟨j, rfl, all⟩ | ⟨s, rfl, all⟩ | listed
      · rw [column_join all, Except.bind_eq_ok] at found
        obtain ⟨pairs, given, _⟩ := found
        rw [column_join all, column_join all, given, schemas_kept within _ pairs given]
      · rw [column_select all] at found
        rw [column_select all, column_select all]
        cases table : s.table with
        | none => rfl
        | some inner =>
            rw [table, Except.bind_eq_ok] at found
            obtain ⟨c', inside, _⟩ := found
            simp only [ih s inner rfl table inside]
      · rw [listed] at found
        rw [listed, listed, listed_stable within found]

/-! The spelling of a name. -/

theorem schema_select_all {s : Select} {inner : Relation} (given : s.table = some inner)
    (all : s.columns = none) (store : Store) :
    (Relation.select s).schema store = inner.schema store :=
  schemaIn_select_all store.meaning given all

/-- The relation whose columns are shown: a SELECT without a list shows those of its table. -/
def shown : Relation → Relation
  | .select ⟨_, some source, none, _, _, _, _, _, _⟩ => source.shown
  | r => r

theorem shown_select_all {s : Select} {inner : Relation} (given : s.table = some inner)
    (all : s.columns = none) : (Relation.select s).shown = inner.shown := by
  obtain ⟨_, _, _, _, _, _, _, _, _⟩ := s
  cases given
  cases all
  rw [shown]

/-- A relation lists its columns in its schema, unless it shows those of its table or of the
relations that it joins. -/
theorem shown_cases (r : Relation) :
    (∃ s inner, r = .select s ∧ s.table = some inner ∧ s.columns = none) ∨
      (∃ j, r = .join j ∧ j.columns = none) ∨
      (r.shown = r ∧ ∀ store name, r.column store name = column.listed store r name) := by
  rcases r.open_or_listed with ⟨j, rfl, all⟩ | ⟨s, rfl, all⟩ | listed
  · exact .inr (.inl ⟨j, rfl, all⟩)
  · cases table : s.table with
    | none =>
        obtain ⟨_, _, _, _, _, _, _, _, _⟩ := s
        cases table
        cases all
        exact .inr (.inr ⟨rfl, fun _ _ => rfl⟩)
    | some inner => exact .inl ⟨s, inner, rfl, table, all⟩
  · cases r with
    | select s =>
        obtain ⟨_, table, columns, _, _, _, _, _, _⟩ := s
        cases table with
        | none => exact .inr (.inr ⟨rfl, listed⟩)
        | some inner =>
            cases columns with
            | none => exact .inl ⟨_, inner, rfl, rfl, rfl⟩
            | some columns => exact .inr (.inr ⟨rfl, listed⟩)
    | _ => exact .inr (.inr ⟨rfl, listed⟩)

theorem listed_of_schema {schema : Option Schema} (given : r.schema store = .ok schema) :
    column.listed store r name =
      (Schema.spelling schema name).elim (.error (.unknownColumn r.label name))
        fun key => .ok ⟨r, key⟩ := by
  rw [column.listed, given]
  cases schema with
  | none => rfl
  | some schema =>
      simp only [Schema.spelling, bind, Except.bind]
      cases schema.getKey? name with
      | none => rfl
      | some key => rfl

/-- A relation with a schema has the columns that the schema lists, spelled as there. -/
theorem column_eq_of_schema {schema : Option Schema} (given : r.schema store = .ok schema) :
    r.column store name =
      (Schema.spelling schema name).elim (.error (.unknownColumn r.shown.label name))
        fun key => .ok ⟨r, key⟩ := by
  induction r using nested_induction with
  | step r ih =>
      rcases r.shown_cases with ⟨s, inner, rfl, table, all⟩ | ⟨j, rfl, all⟩ | ⟨itself, listed⟩
      · rw [schema_select_all table all] at given
        rw [column_select all, table, shown_select_all table all]
        simp only [ih s inner rfl table given]
        cases Schema.spelling schema name with
        | none => rfl
        | some key => rfl
      · obtain ⟨_, _, _, _, _⟩ := j
        cases all
        cases given
      · rw [listed, itself, listed_of_schema given]

/-- The relation shows all columns of joined relations. -/
def ShowsJoin (r : Relation) : Prop :=
  ∃ j, r.shown = .join j ∧ j.columns = none

theorem schema_of_showsJoin (shows : r.ShowsJoin) : r.schema store = .error .openJoinSchema := by
  induction r using nested_induction with
  | step r ih =>
      rcases r.shown_cases with ⟨s, inner, rfl, table, all⟩ | ⟨j, rfl, all⟩ | ⟨itself, _⟩
      · rw [ShowsJoin, shown_select_all table all] at shows
        rw [schema_select_all table all]
        exact ih s inner rfl table shows
      · obtain ⟨_, _, _, _, _⟩ := j
        cases all
        rfl
      · obtain ⟨j, shown, all⟩ := shows
        cases itself.symm.trans shown
        obtain ⟨_, _, _, _, _⟩ := j
        cases all
        rfl

/-- Where there is no schema for an error, there is no column for the same error. Only the columns
of joined relations are found without a schema of the whole. -/
theorem column_of_schema_error {e : Error} (given : r.schema store = .error e)
    (closed : ¬ r.ShowsJoin) : r.column store name = .error e := by
  induction r using nested_induction with
  | step r ih =>
      rcases r.shown_cases with ⟨s, inner, rfl, table, all⟩ | ⟨j, rfl, all⟩ | ⟨_, listed⟩
      · rw [schema_select_all table all] at given
        have inside : ¬ inner.ShowsJoin := by
          rwa [ShowsJoin, ← shown_select_all table all]
        rw [column_select all, table]
        simp only [ih s inner rfl table given inside]
        rfl
      · exact absurd ⟨j, rfl, all⟩ closed
      · rw [listed, column.listed, given]
        rfl

theorem spelling_of_column {schema : Option Schema} {c : Column}
    (given : r.schema store = .ok schema) (found : r.column store name = .ok c) :
    Schema.spelling schema name = some c.name := by
  rw [column_eq_of_schema given] at found
  cases spelled : Schema.spelling schema name with
  | none =>
      rw [spelled] at found
      cases found
  | some key =>
      rw [spelled] at found
      cases found
      rfl

/-- A relation with a schema spells its columns as the schema does. -/
theorem column_of_schema {schema : Option Schema} {key : String}
    (given : r.schema store = .ok schema) (spelled : Schema.spelling schema name = some key) :
    ∃ c, r.column store name = .ok c ∧ c.name = key := by
  rw [column_eq_of_schema given, spelled]
  exact ⟨_, rfl, rfl⟩

end Relation

end SqlQuery
