import Mathlib.Data.List.Forall2
import SqlQuery.Proofs.Builder.Binding
import SqlQuery.Proofs.Builder.Layers
import SqlQuery.Proofs.Query.Lookup
import SqlQuery.Proofs.Render.Rebinding

/-!
Filters on filters. Main statement: predicates that are laid over a relation in two calls come to
the same SQL as in one call. In the first case the placeholders of the second call are bound to
columns of the relation in between, but the names of the columns are the same.
-/

namespace SqlQuery

namespace Store

variable {store later : Store} {new : List (PlaceholderId × Expr)}

theorem binding?_of_append (bindings : later.bindings = store.bindings ++ new)
    (id : PlaceholderId) : later.binding? id = (store.binding? id).or (new.lookup id) := by
  rw [binding?, bindings, List.lookup_append, binding?]

theorem within_of_append (bindings : later.bindings = store.bindings ++ new) :
    store.Within later := by
  intro id e binding
  rw [binding?_of_append bindings, binding]
  rfl

end Store

/-! Two bindings of the same placeholders. -/

/-- Bindings of one placeholder to columns of one name. -/
structure Renamed (left right : PlaceholderId × Expr) : Prop where
  placeholder : left.1 = right.1
  column : ∃ c d : Column, left.2 = .column c ∧ right.2 = .column d ∧ c.name = d.name

namespace Renamed

variable {left right : List (PlaceholderId × Expr)}

theorem lookup (renamed : List.Forall₂ Renamed left right) (id : PlaceholderId) :
    (left.lookup id = none ∧ right.lookup id = none) ∨
      ∃ c d : Column, left.lookup id = some (.column c) ∧ right.lookup id = some (.column d) ∧
        c.name = d.name := by
  induction renamed with
  | nil => exact .inl ⟨rfl, rfl⟩
  | @cons first second _ _ same _ ih =>
      obtain ⟨one, e⟩ := first
      obtain ⟨_, e'⟩ := second
      obtain ⟨rfl, c, d, rfl, rfl, spelled⟩ := same
      cases met : id == one with
      | true =>
          simp only [List.lookup_cons, met]
          exact .inr ⟨c, d, rfl, rfl, spelled⟩
      | false =>
          simp only [List.lookup_cons, met]
          exact ih

theorem length_owners (renamed : List.Forall₂ Renamed left right) :
    (left.flatMap fun binding => binding.2.owners).length =
      (right.flatMap fun binding => binding.2.owners).length := by
  induction renamed with
  | nil => rfl
  | cons same _ ih =>
      obtain ⟨_, ⟨_, _⟩, ⟨_, _⟩, left, right, _⟩ := same
      simp only [List.flatMap_cons, List.length_append, ih, left, right, Expr.owners,
        List.length_singleton]

end Renamed

/-! The placeholders of a call. -/

namespace Relation

/-- The binding of a placeholder to the column of its name. -/
def Gives (source : Relation) (store : Store) (target : PlaceholderId × String)
    (binding : PlaceholderId × Expr) : Prop :=
  ∃ c, source.column store target.2 = .ok c ∧ binding = (target.1, .column c)

namespace Gives

variable {source other : Relation} {store later : Store}
  {targets : List (PlaceholderId × String)} {new : List (PlaceholderId × Expr)}

theorem map_fst (given : List.Forall₂ (source.Gives store) targets new) :
    new.map Prod.fst = targets.map Prod.fst := by
  induction given with
  | nil => rfl
  | cons gives _ ih =>
      obtain ⟨c, _, rfl⟩ := gives
      rw [List.map_cons, List.map_cons, ih]

/-- Columns mention nothing. -/
theorem mentionsOnly (given : List.Forall₂ (source.Gives store) targets new)
    (allowed : Mention → Prop) :
    ∀ binding ∈ new, (Node.expr binding.2).MentionsOnly allowed := by
  induction given with
  | nil => exact List.forall_mem_nil _
  | cons gives _ ih =>
      obtain ⟨c, _, rfl⟩ := gives
      refine List.forall_mem_cons.mpr ⟨?_, ih⟩
      intro m mentioned
      cases mentioned with
      | child listed _ => cases listed

/-- A relation that spells the names as another one does can give the columns in its place. -/
theorem exists_renamed (given : List.Forall₂ (other.Gives later) targets new)
    (spelled : ∀ name c, other.column later name = .ok c →
      ∃ d, source.column store name = .ok d ∧ d.name = c.name) :
    ∃ instead, List.Forall₂ (source.Gives store) targets instead ∧
      List.Forall₂ Renamed new instead := by
  induction given with
  | nil => exact ⟨[], .nil, .nil⟩
  | @cons target _ _ _ gives _ ih =>
      obtain ⟨c, found, rfl⟩ := gives
      obtain ⟨d, given, same⟩ := spelled target.2 c found
      obtain ⟨instead, columns, renamed⟩ := ih
      exact ⟨(target.1, .column d) :: instead, .cons ⟨d, given, rfl⟩ columns,
        .cons ⟨rfl, c, d, rfl, rfl, same.symm⟩ renamed⟩

end Gives

/-- Placeholders that are bound for the first time, each to the column of its name. -/
structure Resolves (source : Relation) (store : Store) (targets : List (PlaceholderId × String))
    (new : List (PlaceholderId × Expr)) : Prop where
  columns : List.Forall₂ (source.Gives store) targets new
  distinct : (targets.map Prod.fst).Nodup
  unbound : ∀ target ∈ targets, store.binding? target.1 = none

namespace Resolves

variable {source : Relation} {store later : Store} {targets : List (PlaceholderId × String)}
  {new : List (PlaceholderId × Expr)}

/-- The bindings change none of the columns that placeholders could be bound to. -/
theorem column (resolves : source.Resolves store targets new)
    (bindings : later.bindings = store.bindings ++ new) {name : String} {c : Column}
    (found : source.column later name = .ok c) : source.column store name = .ok c := by
  cases resolves.columns with
  | nil =>
      have back : store.bindings = later.bindings ++ [] := by simp [bindings]
      rw [column_stable (Store.within_of_append back) found, found]
  | cons gives _ =>
      obtain ⟨_, first, _⟩ := gives
      rw [← column_stable (Store.within_of_append bindings) first, found]

theorem cons_iff {id : PlaceholderId} {name : String} :
    source.Resolves store ((id, name) :: targets) new ↔
      ∃ c rest, source.column store name = .ok c ∧ store.binding? id = none ∧
        source.Resolves (store.bind id (.column c)) targets rest ∧
        new = (id, .column c) :: rest := by
  have within : ∀ e, store.Within (store.bind id e) := by
    intro e
    have bindings : (store.bind id e).bindings = store.bindings ++ [(id, e)] := rfl
    exact Store.within_of_append bindings
  constructor
  · rintro ⟨columns, distinct, unbound⟩
    obtain ⟨_, rest, ⟨c, found, rfl⟩, others, rfl⟩ := List.forall₂_cons_left_iff.mp columns
    obtain ⟨unboundFirst, unbound⟩ := List.forall_mem_cons.mp unbound
    obtain ⟨other, distinct⟩ := List.nodup_cons.mp distinct
    refine ⟨c, rest, found, unboundFirst, ⟨?_, distinct, ?_⟩, rfl⟩
    · apply others.imp
      rintro target _ ⟨d, given, rfl⟩
      exact ⟨d, (column_stable (within _) found target.2).trans given, rfl⟩
    · intro target listed
      have differ : target.1 ≠ id := fun same => other (List.mem_map.mpr ⟨target, listed, same⟩)
      rw [Store.binding?_bind, unbound target listed, if_neg differ]
      rfl
  · rintro ⟨c, rest, found, unboundFirst, ⟨columns, distinct, unbound⟩, rfl⟩
    have unbound : ∀ target ∈ targets, target.1 ≠ id ∧ store.binding? target.1 = none := by
      intro target listed
      have free := unbound target listed
      rw [Store.binding?_bind, Option.or_eq_none_iff] at free
      refine ⟨?_, free.1⟩
      intro same
      rw [if_pos same] at free
      cases free.2
    refine ⟨.cons ⟨c, found, rfl⟩ ?_, List.nodup_cons.mpr ⟨?_, distinct⟩,
      List.forall_mem_cons.mpr ⟨unboundFirst, fun target listed => (unbound target listed).2⟩⟩
    · apply columns.imp
      rintro target _ ⟨d, given, rfl⟩
      exact ⟨d, (column_stable (within _) found target.2).symm.trans given, rfl⟩
    · intro listed
      obtain ⟨target, listed, same⟩ := List.mem_map.mp listed
      exact (unbound target listed).1 same

end Resolves

end Relation

namespace Build

variable {source : Relation} {store after : Store}

theorem bind_column_eq_ok {id : PlaceholderId} {name : String} :
    (do bind id name (← column source name) : Build Unit).outcome store = (.ok (), after) ↔
      ∃ c, source.column store name = .ok c ∧ store.binding? id = none ∧
        after = store.bind id (.column c) := by
  rw [ExceptT.outcome_bind_eq_ok, column_outcome]
  cases found : source.column store name with
  | error e => simp [Except.map]
  | ok c =>
      simp only [Except.map, Prod.mk.injEq, Except.ok.injEq, exists_eq_left', bind_outcome]
      cases binding : store.binding? id with
      | none => simp [binding, eq_comm]
      | some e => simp [binding]

/-- Placeholders are bound one after another if and only if all are bound for the first time, to
columns that the relation has before any of them is bound. -/
theorem bindAll_eq_ok {targets : List (PlaceholderId × String)} :
    (targets.forM fun (id, name) => do bind id name (← column source name)).outcome store =
        (.ok (), after) ↔
      ∃ new, source.Resolves store targets new ∧
        after = { store with bindings := store.bindings ++ new } := by
  -- Every binding of the loop changes the store, so the store of the statement moves along.
  induction targets generalizing store with
  | nil =>
      constructor
      · intro ran
        cases ran
        exact ⟨[], ⟨.nil, List.nodup_nil, List.forall_mem_nil _⟩, by simp⟩
      · rintro ⟨new, resolves, rfl⟩
        cases resolves.columns
        simp only [List.append_nil]
        rfl
  | cons target targets ih =>
      obtain ⟨id, name⟩ := target
      rw [ExceptT.outcome_forM_cons_eq_ok]
      constructor
      · rintro ⟨middle, first, others⟩
        obtain ⟨c, found, unbound, rfl⟩ := bind_column_eq_ok.mp first
        obtain ⟨rest, resolves, rfl⟩ := ih.mp others
        refine ⟨_, Relation.Resolves.cons_iff.mpr ⟨c, rest, found, unbound, resolves, rfl⟩, ?_⟩
        simp [Store.bind]
      · rintro ⟨_, resolves, rfl⟩
        obtain ⟨c, rest, found, unbound, others, rfl⟩ := Relation.Resolves.cons_iff.mp resolves
        refine ⟨_, bind_column_eq_ok.mpr ⟨c, found, unbound, rfl⟩, ih.mpr ⟨rest, others, ?_⟩⟩
        simp [Store.bind]

theorem resolve_eq_ok {exprs : List Expr} :
    (resolve source exprs).outcome store = (.ok (), after) ↔
      ∃ new, source.Resolves store (Expr.placeholders exprs) new ∧
        after = { store with bindings := store.bindings ++ new } :=
  bindAll_eq_ok

end Build

/-! The SELECT that predicates go into. -/

/-- A SELECT with more predicates. -/
def SelectOf.filtered (s : Select) (id : RelationId) (filters : List Expr) : Select :=
  { s with id, filters := s.filters ++ filters }

theorem SelectOf.filtered_filtered (s : Select) (id other : RelationId) (a b : List Expr) :
    (s.filtered id a).filtered other b = s.filtered other (a ++ b) := by
  simp only [filtered, List.append_assoc]

namespace Relation

variable {r : Relation} {store : Store} {name : String} {c : Column}

/-- The SELECT that takes predicates on a relation: the relation itself, if it is a SELECT without
LIMIT and GROUP BY, or a new one around it. -/
def host (r : Relation) : Select :=
  match r with
  | .select s => if s.limit.isNone && s.groupBy.isEmpty then s else { id := r.id, table := some r }
  | _ => { id := r.id, table := some r }

theorem host_cases (r : Relation) :
    r = .select r.host ∨ r.host = { id := r.id, table := some r } := by
  cases r with
  | select s =>
      rw [host]
      split
      · exact .inl rfl
      · exact .inr rfl
  | _ => exact .inr rfl

theorem layer_filters (r : Relation) (id : RelationId) (filters : List Expr) :
    r.layer id { filters } = .select (r.host.filtered id filters) := by
  cases r with
  | select s =>
      have absorbs : s.absorbs { filters } = (s.limit.isNone && s.groupBy.isEmpty) := by
        simp [SelectOf.absorbs]
      rw [layer, host, absorbs]
      split
      · simp [SelectOf.absorb, SelectOf.filtered]
      · rfl
  | _ => rfl

theorem host_filtered (r : Relation) (id : RelationId) (filters : List Expr) :
    (Relation.select (r.host.filtered id filters)).host = r.host.filtered id filters := by
  have opened : (r.host.limit.isNone && r.host.groupBy.isEmpty) = true := by
    cases r with
    | select s =>
        rw [host]
        split
        · assumption
        · rfl
    | _ => rfl
  exact if_pos opened

/-- SELECTs of the same columns from the same table spell the names alike. -/
theorem column_of_same_columns {s t : Select} (table : s.table = t.table)
    (columns : s.columns = t.columns) (found : (Relation.select s).column store name = .ok c) :
    ∃ d, (Relation.select t).column store name = .ok d ∧ d.name = c.name := by
  obtain ⟨_, source, selected, _, _, _, _, _, _⟩ := s
  obtain ⟨_, _, _, _, _, _, _, _, _⟩ := t
  cases table
  cases columns
  cases selected with
  | none =>
      rw [column_select rfl] at found ⊢
      cases source with
      | none =>
          cases found
          exact ⟨_, rfl, rfl⟩
      | some inner =>
          obtain ⟨d, inside, result⟩ := Except.bind_eq_ok.mp found
          cases result
          exact ⟨_, Except.bind_eq_ok.mpr ⟨d, inside, rfl⟩, rfl⟩
  | some selected =>
      obtain ⟨schema, key, given, spelled, rfl⟩ := listed_eq_ok.mp found
      refine ⟨_, listed_eq_ok.mpr ⟨schema, key, ?_, spelled, rfl⟩, rfl⟩
      rw [← given, Relation.schema, Relation.schema]
      cases source <;> simp only [Relation.schemaIn]

/-- An alias and a CTE spell the names as what they stand for does. -/
theorem column_resolutionSource (found : r.column store name = .ok c) :
    ∃ d, r.resolutionSource.column store name = .ok d ∧ d.name = c.name := by
  cases r with
  | aliased a =>
      obtain ⟨schema, key, given, spelled, rfl⟩ := listed_eq_ok.mp found
      exact column_of_schema given spelled
  | cte d =>
      obtain ⟨schema, key, given, spelled, rfl⟩ := listed_eq_ok.mp found
      exact column_of_schema given spelled
  | _ => exact ⟨c, found, rfl⟩

theorem column_filtered {id : RelationId} {filters : List Expr}
    (found : (Relation.select (r.host.filtered id filters)).column store name = .ok c) :
    ∃ d, r.resolutionSource.column store name = .ok d ∧ d.name = c.name := by
  rcases r.host_cases with itself | around
  · have same : ∃ d, (Relation.select r.host).column store name = .ok d ∧ d.name = c.name :=
      column_of_same_columns (s := r.host.filtered id filters) rfl rfl found
    rw [← itself] at same
    obtain ⟨d, found, spelled⟩ := same
    obtain ⟨d', found, spelled'⟩ := column_resolutionSource found
    exact ⟨d', found, spelled'.trans spelled⟩
  · rw [around, column_select rfl] at found
    obtain ⟨d, inside, result⟩ := Except.bind_eq_ok.mp found
    obtain ⟨d', given, spelled⟩ := column_resolutionSource inside
    cases result
    exact ⟨d', given, spelled⟩

theorem mem_trace_filtered {id : RelationId} {filters : List Expr} {step : Step}
    (listed : step ∈ (Relation.select (r.host.filtered id filters)).trace) :
    step ∈ r.trace ∨ ∃ e ∈ filters, step ∈ e.trace := by
  rw [trace_select] at listed
  rcases r.host_cases with itself | around
  · rw [itself, trace_select]
    simp only [SelectOf.filtered, Expr.traceOfAll_eq_flatMap, List.flatMap_append,
      List.mem_append] at listed ⊢
    rw [← List.mem_flatMap]
    tauto
  · rw [around] at listed
    simp only [SelectOf.filtered, Expr.traceOfAll_eq_flatMap, Expr.traceOfOptional,
      Relation.traceOfOptional, List.nil_append, List.flatMap_nil, List.append_nil,
      List.mem_append, List.mem_flatMap] at listed
    exact listed

theorem filtered_plainIn {own : PlaceholderId → Prop} {left right : Store} {id : RelationId}
    {filters : List Expr} (foreign : r.MentionsOnly (Mention.Foreign own))
    (plain : ∀ e ∈ filters, (Node.expr e).PlainIn own left right) :
    (Node.relation (.select (r.host.filtered id filters))).PlainIn own left right := by
  intro step listed m name event
  rw [Node.trace] at listed
  rcases mem_trace_filtered listed with inRelation | ⟨e, given, inPredicate⟩
  · have around : (Node.relation r).PlainIn own left right := .of_foreign foreign
    exact around step inRelation m name event
  · exact plain e given step inPredicate m name event

end Relation

/-! Stores with two bindings of the same placeholders. -/

section

variable {left right : Store} {shared inLeft inRight : List (PlaceholderId × Expr)}

theorem Store.rebound_of_renamed {own : PlaceholderId → Prop}
    (ofLeft : left.bindings = shared ++ inLeft) (ofRight : right.bindings = shared ++ inRight)
    (renamed : List.Forall₂ Renamed inLeft inRight)
    (owned : ∀ id, own id ↔ id ∈ inLeft.map Prod.fst)
    (unshared : ∀ id, own id → shared.lookup id = none) : left.Rebound own right where
  other id foreign := by
    rw [Store.binding?, ofLeft, Store.binding?, ofRight, List.lookup_append, List.lookup_append]
    rcases Renamed.lookup renamed id with ⟨noLeft, noRight⟩ | ⟨c, d, found, _, _⟩
    · rw [noLeft, noRight]
    · obtain ⟨before, after, listed, _⟩ := List.lookup_eq_some_iff.mp found
      exact absurd ((owned id).mpr (by simp [listed])) foreign
  renamed id isOwn := by
    rw [Store.binding?, ofLeft, Store.binding?, ofRight, List.lookup_append, List.lookup_append,
      unshared id isOwn]
    rcases Renamed.lookup renamed id with ⟨noLeft, _⟩ | found
    · obtain ⟨binding, listed, rfl⟩ := List.mem_map.mp ((owned id).mp isOwn)
      have differ := List.lookup_eq_none_iff.mp noLeft binding listed
      simp at differ
    · exact found

theorem Settings.depth_of_renamed (settings : Settings)
    (ofLeft : left.bindings = shared ++ inLeft) (ofRight : right.bindings = shared ++ inRight)
    (renamed : List.Forall₂ Renamed inLeft inRight) :
    settings.depth left = settings.depth right := by
  have values : (settings.values left).length = (settings.values right).length := by
    simp only [Settings.values, ofLeft, ofRight, List.length_append, List.length_map,
      renamed.length_eq]
  have owners : (settings.owners left).length = (settings.owners right).length := by
    have same := Renamed.length_owners renamed
    simp only [Settings.owners, Settings.values, ofLeft, ofRight, List.map_append,
      List.flatMap_append, List.flatMap_map, List.length_append, Node.owners, same]
  rw [Settings.depth, values, owners, Settings.depth]

theorem Node.compile_of_renamed {own : PlaceholderId → Prop} {settings : Settings} {node : Node}
    (ofLeft : left.bindings = shared ++ inLeft) (ofRight : right.bindings = shared ++ inRight)
    (renamed : List.Forall₂ Renamed inLeft inRight)
    (owned : ∀ id, own id ↔ id ∈ inLeft.map Prod.fst)
    (unshared : ∀ id, own id → shared.lookup id = none)
    (values : ∀ node ∈ settings.values left, node.MentionsOnly (Mention.Foreign own))
    (plain : node.PlainIn own left right) :
    node.compile left settings = node.compile right settings := by
  have rebound := Store.rebound_of_renamed ofLeft ofRight renamed owned unshared
  rw [Node.compile, Node.compile, settings.depth_of_renamed ofLeft ofRight renamed]
  exact Node.compileWithin_rebound rebound values plain _

end

/-! The second call. -/

namespace Relation.Resolves

variable {source other : Relation} {store middle : Store}
  {first second : List (PlaceholderId × String)} {new more : List (PlaceholderId × Expr)}

theorem binding?_ne_none (resolves : source.Resolves store first new)
    (bindings : middle.bindings = store.bindings ++ new) {target : PlaceholderId × String}
    (listed : target ∈ first) : middle.binding? target.1 ≠ none := by
  intro unbound
  rw [Store.binding?_of_append bindings, Option.or_eq_none_iff] at unbound
  have bound : target.1 ∈ new.map Prod.fst := by
    rw [Gives.map_fst resolves.columns]
    exact List.mem_map_of_mem listed
  obtain ⟨binding, listed, same⟩ := List.mem_map.mp bound
  have differ := List.lookup_eq_none_iff.mp unbound.2 binding listed
  simp [same] at differ

/-- If another relation spells the names as this one does, then this one can bind at once what the
other one binds afterwards. -/
theorem append (resolves : source.Resolves store first new)
    (bindings : middle.bindings = store.bindings ++ new)
    (afterwards : other.Resolves middle second more)
    (spelled : ∀ name c, other.column middle name = .ok c →
      ∃ d, source.column middle name = .ok d ∧ d.name = c.name) :
    ∃ instead, source.Resolves store (first ++ second) (new ++ instead) ∧
      List.Forall₂ Renamed more instead := by
  have before : ∀ name c, other.column middle name = .ok c →
      ∃ d, source.column store name = .ok d ∧ d.name = c.name := by
    intro name c found
    obtain ⟨d, given, same⟩ := spelled name c found
    exact ⟨d, resolves.column bindings given, same⟩
  obtain ⟨instead, given, renamed⟩ := Gives.exists_renamed afterwards.columns before
  refine ⟨instead, ⟨List.rel_append resolves.columns given, ?_, ?_⟩, renamed⟩
  · rw [List.map_append, List.nodup_append']
    refine ⟨resolves.distinct, afterwards.distinct, ?_⟩
    intro id inFirst inSecond
    obtain ⟨target, listed, rfl⟩ := List.mem_map.mp inFirst
    obtain ⟨target', listed', same⟩ := List.mem_map.mp inSecond
    exact resolves.binding?_ne_none bindings listed (same ▸ afterwards.unbound target' listed')
  · rw [List.forall_mem_append]
    refine ⟨resolves.unbound, ?_⟩
    intro target listed
    have free := afterwards.unbound target listed
    rw [Store.binding?_of_append bindings, Option.or_eq_none_iff] at free
    exact free.1

end Relation.Resolves

/-- Expressions without a placeholder in common. -/
theorem Expr.placeholders_append {a b : List Expr}
    (apart : ∀ target ∈ Expr.placeholders b, target ∉ Expr.placeholders a) :
    Expr.placeholders (a ++ b) = Expr.placeholders a ++ Expr.placeholders b := by
  simp only [Expr.placeholders, List.mem_eraseDups] at apart
  simp only [Expr.placeholders, List.flatMap_append, List.filterMap_append, List.eraseDups_append]
  congr 2
  rw [List.removeAll, List.filter_eq_self]
  intro target listed
  simpa using apart target listed

namespace Build

variable {r first second result : Relation} {store middle after : Store}

theorem filter_of_skipped {predicates : Arguments} (skipped : predicates.present = []) :
    filter r predicates = pure r := by
  rw [filter, skipped]

theorem filter_eq_ok {predicates : Arguments} (given : predicates.present ≠ []) :
    (filter r predicates).outcome store = (.ok result, after) ↔
      ∃ new, r.resolutionSource.Resolves store (Expr.placeholders predicates.present) new ∧
        result = .select (r.host.filtered ⟨store.relations⟩ predicates.present) ∧
        after = { store with
          bindings := store.bindings ++ new, relations := store.relations + 1 } := by
  have unfolded : filter r predicates = (do
      resolve r.resolutionSource predicates.present
      layer r { filters := predicates.present }) := by
    rw [filter]
    split
    · next skipped => exact absurd skipped given
    · rfl
  rw [unfolded, ExceptT.outcome_bind_eq_ok]
  constructor
  · rintro ⟨_, _, resolved, laid⟩
    obtain ⟨new, resolves, rfl⟩ := resolve_eq_ok.mp resolved
    rw [layer_outcome] at laid
    cases laid
    exact ⟨new, resolves, Relation.layer_filters _ _ _, rfl⟩
  · rintro ⟨new, resolves, rfl, rfl⟩
    refine ⟨(), _, resolve_eq_ok.mpr ⟨new, resolves, rfl⟩, ?_⟩
    rw [layer_outcome, Relation.layer_filters]

end Build

theorem Arguments.present_append (a b : Arguments) :
    Arguments.present (a ++ b) = a.present ++ b.present :=
  List.filterMap_append

/-- A placeholder that stands in expressions, outside of the queries in them. -/
def Expr.Awaits (exprs : List Expr) (id : PlaceholderId) : Prop :=
  ∃ name, (id, name) ∈ Expr.placeholders exprs

/-- The identity of a SELECT is not written. -/
theorem Node.compile_filtered (store : Store) (settings : Settings) (s : Select)
    (id other : RelationId) (filters : List Expr) :
    (Node.relation (.select (s.filtered id filters))).compile store settings =
      (Node.relation (.select (s.filtered other filters))).compile store settings := by
  have same : ∀ links ctx, (Relation.select (s.filtered id filters)).render links ctx =
      (Relation.select (s.filtered other filters)).render links ctx := by
    intro links ctx
    rw [Relation.render_select, Relation.render_select]
    rfl
  simp only [Node.compile, Node.compileWithin_eq, Node.renderRoot, same]
  rfl

/-- Where two calls add predicates to a relation, one call adds them all, and its SQL, or its error,
is the same, provided that the placeholders of the second call stand nowhere else, and that inside
of the queries in its predicates no alias tells apart what they are bound to. -/
theorem Build.filters_combine {r first second : Relation} {a b : Arguments}
    {store middle final : Store} (ran : (Build.filter r a).outcome store = (.ok first, middle))
    (ranAgain : (Build.filter first b).outcome middle = (.ok second, final)) :
    ∃ combined after, (Build.filter r (a ++ b)).outcome store = (.ok combined, after) ∧
      ∀ settings : Settings,
        (∀ node ∈ .relation r :: a.present.map .expr ++ settings.values store,
          node.MentionsOnly (Mention.Foreign (Expr.Awaits b.present))) →
        (∀ e ∈ b.present, (Node.expr e).PlainIn (Expr.Awaits b.present) final after) →
        (Node.relation second).compile final settings =
          (Node.relation combined).compile after settings := by
  have append := Arguments.present_append a b
  -- A call without predicates gives back its receiver, and the other call is the combined one.
  by_cases skippedLast : b.present = []
  · rw [Build.filter_of_skipped skippedLast] at ranAgain
    cases ranAgain
    refine ⟨first, middle, ?_, fun _ _ _ => rfl⟩
    rw [← ran, Build.filter, append, skippedLast, List.append_nil, Build.filter]
  by_cases skipped : a.present = []
  · rw [Build.filter_of_skipped skipped] at ran
    cases ran
    refine ⟨second, final, ?_, fun _ _ _ => rfl⟩
    rw [← ranAgain, Build.filter, append, skipped, List.nil_append, Build.filter]
  obtain ⟨new, resolves, rfl, rfl⟩ := (Build.filter_eq_ok skipped).mp ran
  obtain ⟨more, afterwards, rfl, rfl⟩ := (Build.filter_eq_ok skippedLast).mp ranAgain
  obtain ⟨instead, together, renamed⟩ := resolves.append rfl afterwards
    fun name c found => Relation.column_filtered found
  have apart : ∀ target ∈ Expr.placeholders b.present, target ∉ Expr.placeholders a.present :=
    fun target inLast inFirst =>
      resolves.binding?_ne_none rfl inFirst (afterwards.unbound target inLast)
  rw [← Expr.placeholders_append apart, ← append] at together
  have given : Arguments.present (a ++ b) ≠ [] := by simp [append, skipped]
  refine ⟨_, _, (Build.filter_eq_ok given).mpr ⟨_, together, rfl, rfl⟩, ?_⟩
  intro settings foreign plain
  obtain ⟨foreignRelation, foreign⟩ := List.forall_mem_cons.mp foreign
  obtain ⟨foreignFirst, foreignValues⟩ := List.forall_mem_append.mp foreign
  rw [Relation.host_filtered, SelectOf.filtered_filtered, append]
  have ofRight : ({ store with
      bindings := store.bindings ++ (new ++ instead), relations := store.relations + 1 } :
      Store).bindings = store.bindings ++ new ++ instead := (List.append_assoc _ _ _).symm
  -- The two SELECTs differ in their identities only, and the two stores in what the placeholders
  -- of the second call are bound to.
  apply (Node.compile_filtered _ _ _ _ ⟨store.relations⟩ _).trans
  have owned : ∀ id, Expr.Awaits b.present id ↔ id ∈ more.map Prod.fst := by
    intro id
    rw [Relation.Gives.map_fst afterwards.columns]
    simp [Expr.Awaits]
  apply Node.compile_of_renamed rfl ofRight renamed owned
  · rintro id ⟨name, listed⟩
    exact afterwards.unbound _ listed
  · simp only [Settings.values, List.map_append, List.forall_mem_append, List.forall_mem_map]
    simp only [Settings.values, List.forall_mem_append, List.forall_mem_map] at foreignValues
    have columns := Relation.Gives.mentionsOnly resolves.columns
    have later := Relation.Gives.mentionsOnly afterwards.columns
    exact ⟨⟨⟨foreignValues.1, columns _⟩, later _⟩, foreignValues.2⟩
  · apply Relation.filtered_plainIn foreignRelation
    rw [List.forall_mem_append]
    exact ⟨fun e listed => .of_foreign (foreignFirst _ (List.mem_map_of_mem listed)), plain⟩

theorem Relation.table_mentionsOnly (t : Table) (allowed : Mention → Prop) :
    (Relation.table t).MentionsOnly allowed := by
  intro m mentioned
  cases mentioned with
  | source listed _ => cases listed
  | expr listed _ => cases listed

theorem Expr.value_mentionsOnly (v : Value) (allowed : Mention → Prop) :
    (Expr.value v).MentionsOnly allowed := by
  intro m mentioned
  cases mentioned with
  | child listed _ => cases listed

/-! Recent orders above ten with one of the open statuses, in two calls. -/

namespace OpenOrders

def orders : Relation :=
  .table ⟨⟨0⟩, .orders, some { columns := [("Amount", .integer), ("Status", .integer)] }⟩

def recent : Relation := .cte ⟨⟨1⟩, orders, some "recent", none⟩

def opened : Relation := .table ⟨⟨2⟩, ⟨["opened"], by decide, by decide⟩, none⟩

def amount : Expr := .binary .gt [.placeholder ⟨0⟩ "amount", .value (.int 10)]

def status : Expr := .isIn (.placeholder ⟨1⟩ "status") [.subquery opened]

def store : Store := { relations := 3, placeholders := 2 }

def settings : Settings := { dialect := .duckDB }

def first : Relation := .select { id := ⟨3⟩, table := some recent, filters := [amount] }

def middle : Store :=
  { relations := 4, placeholders := 2, bindings := [(⟨0⟩, .column ⟨orders, "Amount"⟩)] }

def second : Relation := .select { id := ⟨4⟩, table := some recent, filters := [amount, status] }

def final : Store :=
  { middle with relations := 5 }.bind ⟨1⟩ (.column ⟨first, "Status"⟩)

def combined : Relation := .select { id := ⟨3⟩, table := some recent, filters := [amount, status] }

def after : Store := middle.bind ⟨1⟩ (.column ⟨orders, "Status"⟩)

theorem awaits_status {id : PlaceholderId} (awaited : Expr.Awaits [status] id) : id = ⟨1⟩ := by
  obtain ⟨name, listed⟩ := awaited
  have targets : Expr.placeholders [status] = [(⟨1⟩, "status")] := rfl
  rw [targets, List.mem_singleton] at listed
  exact congrArg Prod.fst listed

theorem recent_mentionsOnly (allowed : Mention → Prop) : recent.MentionsOnly allowed := by
  intro m mentioned
  cases mentioned with
  | source listed mentioned =>
      cases List.mem_singleton.mp listed
      exact Relation.table_mentionsOnly _ allowed m mentioned
  | expr listed _ => cases listed

theorem amount_foreign : amount.MentionsOnly (Mention.Foreign (Expr.Awaits [status])) := by
  intro m mentioned
  cases mentioned with
  | child listed mentioned =>
      rcases List.mem_cons.mp listed with rfl | listed
      · rintro id rfl awaited
        cases awaits_status awaited
        cases mentioned with
        | placeholder _ same => cases same
        | child listed _ => cases listed
      · cases List.mem_singleton.mp listed
        exact Expr.value_mentionsOnly _ _ m mentioned

theorem status_plain : (Node.expr status).PlainIn (Expr.Awaits [status]) final after := by
  apply Expr.plainIn_of_apart
  intro r within
  have nodes : status.walk = [status, .placeholder ⟨1⟩ "status", .subquery opened] := rfl
  rw [nodes] at within
  simp only [status, List.mem_cons, reduceCtorEq, Expr.subquery.injEq, List.not_mem_nil,
    or_false, false_or] at within
  cases within
  exact Relation.table_mentionsOnly _ _

end OpenOrders

open OpenOrders in
theorem filters_combine_of_recent :
    (Build.filter recent [none, some amount]).outcome store = (.ok first, middle) ∧
    (Build.filter first [some status, none]).outcome middle = (.ok second, final) ∧
    (Build.filter recent [none, some amount, some status, none]).outcome store =
      (.ok combined, after) ∧
    (Node.relation second).compile final settings =
      (Node.relation combined).compile after settings ∧
    (Node.relation combined).compile after settings =
      .ok ("WITH \n  recent AS (SELECT * FROM \"orders\")\nSELECT * FROM recent WHERE " ++
        "(\"Amount\" > 10) AND (\"Status\" IN ((SELECT * FROM \"opened\")))") := by
  have ran : (Build.filter recent [none, some amount]).outcome store = (.ok first, middle) := rfl
  have ranAgain : (Build.filter first [some status, none]).outcome middle = (.ok second, final) :=
    rfl
  have ranOnce : (Build.filter recent [none, some amount, some status, none]).outcome store =
      (.ok combined, after) := rfl
  refine ⟨ran, ranAgain, ranOnce, ?_, by decide +kernel⟩
  obtain ⟨result, reached, together, same⟩ := Build.filters_combine ran ranAgain
  cases ranOnce.symm.trans together
  apply same
  · rw [List.forall_mem_append, List.forall_mem_cons]
    exact ⟨⟨recent_mentionsOnly _, List.forall_mem_singleton.mpr amount_foreign⟩,
      List.forall_mem_nil _⟩
  · exact List.forall_mem_singleton.mpr status_plain

/-! Orders and a query on a join of them, both with one placeholder. In two calls it is bound to a
relation that the join does not know, in one call to the orders in the join. -/

namespace JoinedOrders

def orders : Relation := .table ⟨⟨0⟩, .orders, none⟩

def items : Relation := .table ⟨⟨1⟩, ⟨["items"], by decide, by decide⟩, none⟩

def x : Expr := .placeholder ⟨0⟩ "x"

def joined : Relation := .join
  { id := ⟨4⟩
    sources := [.aliased ⟨⟨2⟩, orders, "a"⟩, .aliased ⟨⟨3⟩, items, "b"⟩]
    kind := .inner
    on := [.binary .eq [x, .value (.int 1)]]
    columns := none }

def always : Expr := .binary .gt [.value (.int 1), .value (.int 0)]

def positive : Arguments :=
  [some (.binary .gt [x, .value (.int 0)]),
    some (.binary .gt [.subquery joined, .value (.int 0)])]

def store : Store := { relations := 5, placeholders := 1 }

def settings : Settings := { dialect := .duckDB }

def filters : List Expr := always :: positive.present

def first : Relation := .select { id := ⟨5⟩, table := some orders, filters := [always] }

def second : Relation := .select { id := ⟨6⟩, table := some orders, filters }

def combined : Relation := .select { id := ⟨5⟩, table := some orders, filters }

def middle : Store := { store with relations := 6 }

def final : Store := { store with relations := 7, bindings := [(⟨0⟩, .column ⟨first, "x"⟩)] }

def after : Store := { store with relations := 6, bindings := [(⟨0⟩, .column ⟨orders, "x"⟩)] }

theorem always_mentionsOnly (allowed : Mention → Prop) : always.MentionsOnly allowed := by
  intro m mentioned
  cases mentioned with
  | child listed mentioned =>
      rcases List.mem_cons.mp listed with rfl | listed
      · exact Expr.value_mentionsOnly _ _ m mentioned
      · cases List.mem_singleton.mp listed
        exact Expr.value_mentionsOnly _ _ m mentioned

end JoinedOrders

open JoinedOrders in
theorem filters_differ_of_joined :
    (Build.filter orders [some always]).outcome store = (.ok first, middle) ∧
    (Build.filter first positive).outcome middle = (.ok second, final) ∧
    (Build.filter orders (some always :: positive)).outcome store = (.ok combined, after) ∧
    (∀ node ∈ [.relation orders, .expr always] ++ settings.values store,
      node.MentionsOnly (Mention.Foreign (Expr.Awaits positive.present))) ∧
    (Node.relation second).compile final settings =
      .ok ("SELECT * FROM \"orders\" WHERE (1 > 0) AND (\"x\" > 0) AND " ++
        "((SELECT * FROM \"orders\" \"a\" JOIN \"items\" \"b\" ON (\"x\" = 1)) > 0)") ∧
    (Node.relation combined).compile after settings =
      .ok ("SELECT * FROM \"orders\" WHERE (1 > 0) AND (\"x\" > 0) AND " ++
        "((SELECT * FROM \"orders\" \"a\" JOIN \"items\" \"b\" ON (\"a\".\"x\" = 1)) > 0)") := by
  refine ⟨rfl, rfl, rfl, ?_, ?_, ?_⟩
  · rw [List.forall_mem_append, List.forall_mem_cons]
    exact ⟨⟨Relation.table_mentionsOnly _ _, List.forall_mem_singleton.mpr (always_mentionsOnly _)⟩,
      List.forall_mem_nil _⟩
  · decide +kernel
  · decide +kernel

end SqlQuery
