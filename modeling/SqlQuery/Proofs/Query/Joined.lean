import SqlQuery.Proofs.Query.Lookup

/-!
The columns of a join whose columns are not selected yet: each belongs to the one source that has
the name, or else to the one source that might have it.
-/

namespace SqlQuery

namespace Relation

/-! What is known of the columns of a relation. -/

variable (store : Store) (name : String)

/-- The schema of the relation is known and has the name. -/
def Lists (r : Relation) : Prop :=
  ∃ schema, r.schema store = .ok (some schema) ∧ (schema.getKey? name).isSome

/-- The relation has no schema, so that it may have any column. -/
def Unlisted (r : Relation) : Prop :=
  r.schema store = .ok none

def known (r : Relation) : Option Schema :=
  (r.schema store).toOption.join

/-- Of the relations, place by place, the given one meets a condition and no other does. -/
def Single (condition : Relation → Prop) (rs : List Relation) (r : Relation) : Prop :=
  ∃ front back, rs = front ++ r :: back ∧ condition r ∧ ∀ other ∈ front ++ back, ¬ condition other

variable {store name} {r : Relation} {schema : Option Schema} {sources : List Relation}
  {c : Column}

theorem known_of_schema (given : r.schema store = .ok schema) : r.known store = schema := by
  rw [known, given]
  cases schema <;> rfl

theorem lists_iff (given : r.schema store = .ok schema) :
    r.Lists store name ↔ ((r.known store).bind (·.getKey? name)).isSome := by
  rw [known_of_schema given, Lists, given]
  cases schema with
  | none => simp
  | some schema => simp

theorem unlisted_iff (given : r.schema store = .ok schema) :
    r.Unlisted store ↔ (r.known store).isNone := by
  rw [known_of_schema given, Unlisted, given]
  cases schema with
  | none => simp
  | some schema => simp

theorem schemas_eq_ok {pairs : List (Relation × Option Schema)} :
    schemas store sources = .ok pairs ↔
      (∀ r ∈ sources, ∃ schema, r.schema store = .ok schema) ∧
        pairs = sources.map fun r => (r, r.known store) := by
  induction sources generalizing pairs with
  | nil =>
      constructor
      · intro found
        cases found
        exact ⟨List.forall_mem_nil _, rfl⟩
      · rintro ⟨-, rfl⟩
        rfl
  | cons r rest ih =>
      rw [schemas_cons_eq_ok, List.forall_mem_cons]
      constructor
      · rintro ⟨schema, others, given, found, rfl⟩
        obtain ⟨computed, rfl⟩ := ih.mp found
        rw [List.map_cons, known_of_schema given]
        exact ⟨⟨⟨schema, given⟩, computed⟩, rfl⟩
      · rintro ⟨⟨⟨schema, given⟩, computed⟩, rfl⟩
        rw [List.map_cons, known_of_schema given]
        exact ⟨schema, _, given, ih.mpr ⟨computed, rfl⟩, rfl⟩

/-! A column of one of several relations. -/

/-- The column that a relation lists under a name. -/
def offer (store : Store) (name : String) (r : Relation) : Option Column :=
  ((r.known store).bind (·.getKey? name)).map fun key => ⟨r, key⟩

theorem offer_eq_none_iff (given : r.schema store = .ok schema) :
    r.offer store name = none ↔ ¬ r.Lists store name := by
  rw [offer, Option.map_eq_none_iff, lists_iff given, Bool.not_eq_true, Option.isSome_eq_false_iff,
    Option.isNone_iff_eq_none]

theorem offer_eq_some_iff (given : r.schema store = .ok schema) :
    r.offer store name = some c ↔ c.source = r ∧
      ∃ listed, r.schema store = .ok (some listed) ∧ listed.getKey? name = some c.name := by
  obtain ⟨source, key⟩ := c
  rw [offer, known_of_schema given, given]
  cases schema with
  | none => simp
  | some schema =>
      simp only [Option.bind_some, Option.map_eq_some_iff, ColumnOf.mk.injEq, Except.ok.injEq,
        Option.some.injEq, exists_eq_left']
      grind

theorem joinedColumn_eq_ok {sources : List Relation} :
    joinedColumn (sources.map fun r => (r, r.known store)) name = .ok c ↔
      sources.filterMap (offer store name) = [c] ∨
        (sources.filterMap (offer store name) = [] ∧
          sources.filter (fun r => (r.known store).isNone) = [c.source] ∧ c.name = name) := by
  have offered : (fun r => ((r.known store).bind (·.getKey? name)).map fun key =>
      (⟨r, key⟩ : Column)) = offer store name := rfl
  simp only [joinedColumn, List.filterMap_map, List.filter_map, List.map_map, Function.comp_def,
    List.map_id', offered]
  generalize sources.filterMap (offer store name) = offers
  generalize (sources.filter fun r => (r.known store).isNone) = others
  obtain ⟨source, key⟩ := c
  rcases offers with _ | ⟨first, _ | ⟨second, offers⟩⟩
  · rcases others with _ | ⟨only, _ | ⟨next, others⟩⟩
    · simp
    · simp [eq_comm]
    · simp
  · simp
  · simp

section Computed

variable (computed : ∀ r ∈ sources, ∃ schema, r.schema store = .ok schema)
include computed

theorem filterMap_offer_eq_nil_iff :
    sources.filterMap (offer store name) = [] ↔ ∀ r ∈ sources, ¬ r.Lists store name := by
  rw [List.filterMap_eq_nil_iff]
  apply forall₂_congr
  intro r listed
  obtain ⟨schema, given⟩ := computed r listed
  exact offer_eq_none_iff given

theorem filterMap_offer_eq_singleton_iff :
    sources.filterMap (offer store name) = [c] ↔
      Single (Lists store name) sources c.source ∧
        ∃ listed, c.source.schema store = .ok (some listed) ∧
          listed.getKey? name = some c.name := by
  rw [List.filterMap_eq_cons_iff]
  constructor
  · rintro ⟨front, r, back, rfl, before, offered, after⟩
    obtain ⟨inFront, inRest⟩ := List.forall_mem_append.mp computed
    obtain ⟨⟨schema, given⟩, inBack⟩ := List.forall_mem_cons.mp inRest
    obtain ⟨rfl, listed, known, spelled⟩ := (offer_eq_some_iff given).mp offered
    have lists : c.source.Lists store name := ⟨listed, known, by rw [spelled]; rfl⟩
    refine ⟨⟨front, back, rfl, lists, List.forall_mem_append.mpr ⟨?_, ?_⟩⟩, listed, known, spelled⟩
    · exact (filterMap_offer_eq_nil_iff inFront).mp (List.filterMap_eq_nil_iff.mpr before)
    · exact (filterMap_offer_eq_nil_iff inBack).mp after
  · rintro ⟨⟨front, back, rfl, -, others⟩, listed, known, spelled⟩
    obtain ⟨inFront, inRest⟩ := List.forall_mem_append.mp computed
    obtain ⟨-, inBack⟩ := List.forall_mem_cons.mp inRest
    obtain ⟨before, after⟩ := List.forall_mem_append.mp others
    have none := (filterMap_offer_eq_nil_iff inFront).mpr before
    exact ⟨front, c.source, back, rfl, List.filterMap_eq_nil_iff.mp none,
      (offer_eq_some_iff known).mpr ⟨rfl, listed, known, spelled⟩,
      (filterMap_offer_eq_nil_iff inBack).mpr after⟩

theorem filter_unlisted_eq_singleton_iff :
    sources.filter (fun r => (r.known store).isNone) = [r] ↔ Single (Unlisted store) sources r := by
  have each : ∀ r ∈ sources, (r.known store).isNone ↔ r.Unlisted store := by
    intro r listed
    obtain ⟨schema, given⟩ := computed r listed
    exact (unlisted_iff given).symm
  rw [List.filter_eq_cons_iff]
  constructor
  · rintro ⟨front, back, rfl, before, unlisted, after⟩
    obtain ⟨inFront, inRest⟩ := List.forall_mem_append.mp each
    obtain ⟨here, inBack⟩ := List.forall_mem_cons.mp inRest
    refine ⟨front, back, rfl, here.mp unlisted, List.forall_mem_append.mpr ⟨?_, ?_⟩⟩
    · intro other listed
      rw [← inFront other listed]
      exact before other listed
    · intro other listed
      rw [← inBack other listed]
      exact List.filter_eq_nil_iff.mp after other listed
  · rintro ⟨front, back, rfl, unlisted, others⟩
    obtain ⟨inFront, inRest⟩ := List.forall_mem_append.mp each
    obtain ⟨here, inBack⟩ := List.forall_mem_cons.mp inRest
    obtain ⟨before, after⟩ := List.forall_mem_append.mp others
    refine ⟨front, back, rfl, ?_, here.mpr unlisted, List.filter_eq_nil_iff.mpr ?_⟩
    · intro other listed
      rw [inFront other listed]
      exact before other listed
    · intro other listed
      rw [inBack other listed]
      exact after other listed

end Computed

end Relation

variable {store : Store} {j : Join} {c : Column} {name : String}

/-- A join without selected columns has a column of a name exactly if the schemas of all its sources
can be found and one of them alone has the name, or none has it and one source alone has no schema;
and the column is that of this source. -/
theorem JoinOf.column_eq_ok (all : j.columns = none) :
    (Relation.join j).column store name = .ok c ↔
      (∀ r ∈ j.sources, ∃ schema, r.schema store = .ok schema) ∧
        ((Relation.Single (Relation.Lists store name) j.sources c.source ∧
            ∃ listed, c.source.schema store = .ok (some listed) ∧
              listed.getKey? name = some c.name) ∨
          ((∀ r ∈ j.sources, ¬ r.Lists store name) ∧
            Relation.Single (Relation.Unlisted store) j.sources c.source ∧ c.name = name)) := by
  rw [Relation.column_join all, Except.bind_eq_ok]
  constructor
  · rintro ⟨pairs, found, joined⟩
    obtain ⟨computed, rfl⟩ := Relation.schemas_eq_ok.mp found
    rw [Relation.joinedColumn_eq_ok, Relation.filterMap_offer_eq_singleton_iff computed,
      Relation.filterMap_offer_eq_nil_iff computed,
      Relation.filter_unlisted_eq_singleton_iff computed] at joined
    exact ⟨computed, joined⟩
  · rintro ⟨computed, joined⟩
    refine ⟨_, Relation.schemas_eq_ok.mpr ⟨computed, rfl⟩, ?_⟩
    rwa [Relation.joinedColumn_eq_ok, Relation.filterMap_offer_eq_singleton_iff computed,
      Relation.filterMap_offer_eq_nil_iff computed,
      Relation.filter_unlisted_eq_singleton_iff computed]

/-- The source that a name belongs to: it alone lists the name, or it alone has no schema and none
lists the name. -/
def JoinOf.Finds (j : Join) (store : Store) (name : String) (r : Relation) : Prop :=
  Relation.Single (Relation.Lists store name) j.sources r ∨
    ((∀ other ∈ j.sources, ¬ other.Lists store name) ∧
      Relation.Single (Relation.Unlisted store) j.sources r)

namespace JoinOf

theorem finds_of_column (all : j.columns = none)
    (found : (Relation.join j).column store name = .ok c) : j.Finds store name c.source := by
  obtain ⟨-, ⟨single, -⟩ | ⟨none, single, -⟩⟩ := (column_eq_ok all).mp found
  · exact .inl single
  · exact .inr ⟨none, single⟩

theorem exists_column_iff (all : j.columns = none) :
    (∃ c, (Relation.join j).column store name = .ok c) ↔
      (∀ r ∈ j.sources, ∃ schema, r.schema store = .ok schema) ∧ ∃ r, j.Finds store name r := by
  constructor
  · rintro ⟨c, found⟩
    exact ⟨((column_eq_ok all).mp found).1, c.source, finds_of_column all found⟩
  · rintro ⟨computed, r, single | ⟨none, single⟩⟩
    · obtain ⟨front, back, split, ⟨listed, known, spelled⟩, others⟩ := single
      obtain ⟨key, spelled⟩ := Option.isSome_iff_exists.mp spelled
      have lists : r.Lists store name := ⟨listed, known, by rw [spelled]; rfl⟩
      exact ⟨⟨r, key⟩, (column_eq_ok all).mpr ⟨computed,
        .inl ⟨⟨front, back, split, lists, others⟩, listed, known, spelled⟩⟩⟩
    · exact ⟨⟨r, name⟩, (column_eq_ok all).mpr ⟨computed, .inr ⟨none, single, rfl⟩⟩⟩

theorem Finds.mem {r : Relation} (finds : j.Finds store name r) : r ∈ j.sources := by
  rcases finds with ⟨front, back, split, -⟩ | ⟨-, front, back, split, -⟩
  · exact split ▸ List.mem_append_right _ List.mem_cons_self
  · exact split ▸ List.mem_append_right _ List.mem_cons_self

end JoinOf

end SqlQuery
