import SqlQuery.Proofs.Builder.Filters
import SqlQuery.Proofs.Builder.Resolution
import SqlQuery.Proofs.Query.Columns

/-!
Columns through aliases and CTEs. A call on such a relation binds names to the columns of what it
stands for, and the next call to those of the result. Main statement: both find the same columns,
unless the relation shows all columns of a join, or the first call has selected others.
-/

namespace SqlQuery

namespace Relation

variable {store : Store} {r s t w : Relation} {name : String} {c : Column}

/-- Relations with one schema have columns of the same names, unless the columns are found without a
schema. -/
theorem exists_column_of_same_schema (same : r.schema store = s.schema store)
    (closed : ¬ r.ShowsJoin) (found : r.column store name = .ok c) :
    ∃ d, s.column store name = .ok d ∧ d.name = c.name := by
  cases given : r.schema store with
  | error e =>
      rw [column_of_schema_error given closed] at found
      cases found
  | ok schema =>
      exact column_of_schema (same.symm.trans given) (spelling_of_column given found)

/-- The second relation stands for the first one, as an alias or as a CTE. -/
inductive Wraps (t : Relation) : Relation → Prop
  | aliased (id : RelationId) (name : String) : Wraps t (.aliased ⟨id, t, name⟩)
  | cte (id : RelationId) (name : Option String) (params : Option (List String)) :
      Wraps t (.cte ⟨id, t, name, params⟩)

namespace Wraps

theorem schema_eq (wraps : t.Wraps w) (store : Store) : w.schema store = t.schema store := by
  cases wraps with
  | aliased id name => rfl
  | cte id name params => rfl

theorem resolutionSource_eq (wraps : t.Wraps w) : w.resolutionSource = t := by
  cases wraps with
  | aliased id name => rfl
  | cte id name params => rfl

theorem layer_eq (wraps : t.Wraps w) (id : RelationId) (clauses : Clauses) :
    w.layer id clauses = .select (clauses.wrap id w) := by
  cases wraps with
  | aliased id name => rfl
  | cte id name params => rfl

theorem not_showsJoin (wraps : t.Wraps w) : ¬ w.ShowsJoin := by
  rintro ⟨j, shown, _⟩
  cases wraps with
  | aliased id name => cases shown
  | cte id name params => cases shown

theorem column_inside (wraps : t.Wraps w) (found : w.column store name = .ok c) :
    ∃ d, t.column store name = .ok d ∧ d.name = c.name :=
  exists_column_of_same_schema (wraps.schema_eq store) wraps.not_showsJoin found

theorem column_outside (wraps : t.Wraps w) (closed : ¬ t.ShowsJoin)
    (found : t.column store name = .ok c) : ∃ d, w.column store name = .ok d ∧ d.name = c.name :=
  exists_column_of_same_schema (wraps.schema_eq store).symm closed found

theorem column_of_showsJoin (wraps : t.Wraps w) (shows : t.ShowsJoin) :
    w.column store name = .error .openJoinSchema :=
  column_of_schema_error ((wraps.schema_eq store).trans (schema_of_showsJoin shows))
    wraps.not_showsJoin

end Wraps

end Relation

/-! One call. -/

namespace Layering

variable {store after : Store} {r result : Relation} {call : Layering}

/-- A call binds the placeholders of its clauses and lays them over the relation; or it has none and
gives the relation back. -/
theorem run_resolves (ran : (run r call).outcome store = (.ok result, after)) :
    ∃ new, r.resolutionSource.Resolves store (Expr.placeholders call.clauses.exprs) new ∧
      after.bindings = store.bindings ++ new ∧
      ((result = r ∧ call.clauses.exprs = []) ∨ ∃ id, result = r.layer id call.clauses) := by
  have laid : ∀ exprs, exprs = call.clauses.exprs →
      (do
        Build.resolve r.resolutionSource exprs
        Build.layer r call.clauses : Build Relation).outcome store = (.ok result, after) →
      ∃ new, r.resolutionSource.Resolves store (Expr.placeholders call.clauses.exprs) new ∧
        after.bindings = store.bindings ++ new ∧
        ((result = r ∧ call.clauses.exprs = []) ∨ ∃ id, result = r.layer id call.clauses) := by
    rintro _ rfl ran
    obtain ⟨_, middle, resolved, laid⟩ := ExceptT.outcome_bind_eq_ok.mp ran
    obtain ⟨new, resolves, rfl⟩ := Build.resolve_eq_ok.mp resolved
    rw [Build.layer_outcome] at laid
    cases laid
    exact ⟨new, resolves, rfl, .inr ⟨_, rfl⟩⟩
  have nothing : r.resolutionSource.Resolves store (Expr.placeholders []) [] :=
    ⟨.nil, List.nodup_nil, List.forall_mem_nil _⟩
  cases call with
  | select distinct columns =>
      apply laid columns.present _ ran
      rw [clauses, Clauses.exprs]
      cases columns.present with
      | nil => rfl
      | cons e rest => simp
  | filter predicates =>
      rw [run, Build.filter] at ran
      split at ran
      · next skipped =>
          cases ran
          have none : (Layering.filter predicates).clauses.exprs = [] := by
            simp [clauses, Clauses.exprs, skipped]
          exact ⟨[], none ▸ nothing, by simp, .inl ⟨rfl, none⟩⟩
      · exact laid _ (by simp [clauses, Clauses.exprs]) ran
  | orderBy exprs =>
      rw [run, Build.orderBy] at ran
      split at ran
      · next skipped =>
          cases ran
          have none : (Layering.orderBy exprs).clauses.exprs = [] := by
            simp [clauses, Clauses.exprs, skipped]
          exact ⟨[], none ▸ nothing, by simp, .inl ⟨rfl, none⟩⟩
      · exact laid _ (by simp [clauses, Clauses.exprs]) ran
  | limit count =>
      cases ran
      exact ⟨[], nothing, by simp, .inr ⟨_, rfl⟩⟩

end Layering

/-! The columns of the result. -/

theorem Relation.Resolves.exists_column {source : Relation} {store after : Store}
    {targets : List (PlaceholderId × String)} {new : List (PlaceholderId × Expr)}
    (resolves : source.Resolves store targets new)
    (bindings : after.bindings = store.bindings ++ new) {target : PlaceholderId × String}
    (listed : target ∈ targets) :
    ∃ c, source.column store target.2 = .ok c ∧ after.binding? target.1 = some (.column c) := by
  rw [Store.binding?_of_append bindings, resolves.unbound target listed, Option.none_or]
  obtain ⟨columns, distinct, -⟩ := resolves
  clear bindings
  induction columns with
  | nil => cases listed
  | @cons first _ targets new gives _ ih =>
      obtain ⟨c, found, rfl⟩ := gives
      obtain ⟨other, distinct⟩ := List.nodup_cons.mp distinct
      rcases List.mem_cons.mp listed with rfl | listed
      · exact ⟨c, found, List.lookup_cons_self⟩
      · have differ : (target.1 == first.1) = false := by
          rw [beq_eq_false_iff_ne]
          intro same
          exact other (List.mem_map.mpr ⟨target, listed, same⟩)
        rw [List.lookup_cons, differ]
        exact ih listed distinct

theorem Expr.name_of_bound {store : Store} {id : PlaceholderId} {c : Column}
    (bound : store.binding? id = some (.column c)) (name : String) :
    (Expr.placeholder id name).name store = some c.name := by
  rw [Expr.name, Store.meaning]
  cases depth : store.depth with
  | zero =>
      have none : store.bindings = [] := List.eq_nil_of_length_eq_zero depth
      rw [Store.binding?, none] at bound
      cases bound
  | succ links =>
      simp only [Expr.nameIn, Store.interpretation, bound, Option.bind_some]

namespace Relation.Wraps

variable {t w : Relation} {store : Store} {name : String} {c : Column} {s : Select}

theorem column_all (wraps : t.Wraps w) (closed : ¬ t.ShowsJoin) (table : s.table = some w)
    (all : s.columns = none) (found : t.column store name = .ok c) :
    ∃ d, (Relation.select s).column store name = .ok d ∧ d.name = c.name := by
  obtain ⟨d, outside, same⟩ := wraps.column_outside closed found
  rw [column_select all, table]
  exact ⟨_, Except.bind_eq_ok.mpr ⟨d, outside, rfl⟩, same⟩

/-- A name that is selected by itself is found in the SELECT, if that has a schema at all. -/
theorem column_selected (wraps : t.Wraps w) (table : s.table = some w) {es : List Expr}
    (columns : s.columns = some es) {schema : Option Schema}
    (given : (Relation.select s).schema store = .ok schema) {id : PlaceholderId}
    (listed : .placeholder id name ∈ es) (bound : store.binding? id = some (.column c))
    (found : t.column store name = .ok c) :
    ∃ d, (Relation.select s).column store name = .ok d := by
  cases schema with
  | none => exact ⟨_, (column_of_no_schema given).1⟩
  | some schema =>
      have selected := given
      rw [Relation.schema, schemaIn_select _ table columns] at selected
      obtain ⟨base, ofBase, selected⟩ := Except.bind_eq_ok.mp selected
      cases base with
      | none => cases selected
      | some base =>
          obtain ⟨_, selected, same⟩ := Except.bind_eq_ok.mp selected
          cases same
          obtain ⟨lists, -, mode⟩ := Expr.lists_columnsIn (.empty base.mode) selected
          have inside : t.schema store = .ok (some base) :=
            (wraps.schema_eq store).symm.trans ofBase
          have spelled : base.getKey? name = some c.name := spelling_of_column inside found
          have selfNamed : c.name ∈ es.filterMap (Expr.name store) :=
            List.mem_filterMap.mpr ⟨_, listed, Expr.name_of_bound bound name⟩
          -- the list has the column in the spelling of the source, which is compared like the name
          have alike : schema.mode.fold c.name = schema.mode.fold name := by
            rw [show schema.mode = base.mode from mode]
            exact Schema.fold_getKey? spelled
          have contained : schema.contains name = true := by
            rw [Schema.contains_iff, ← alike, ← Schema.contains_iff]
            exact lists.contains selfNamed
          obtain ⟨key, _, _, _, found, _⟩ := column_of_contains given contained
          exact ⟨_, found⟩

end Relation.Wraps

/-- An alias or a CTE has no columns but those of the relation that it stands for, and it has them
all unless the relation shows those of a join. After a call on it the names of these columns are
found in the result; after a call that selects columns, the names that it selects by themselves. -/
theorem Relation.Wraps.transparent {t w : Relation} (wraps : t.Wraps w) :
    (∀ store name,
      (∀ d, w.column store name = .ok d → ∃ c, t.column store name = .ok c ∧ c.name = d.name) ∧
      (¬ t.ShowsJoin → ∀ c, t.column store name = .ok c →
        ∃ d, w.column store name = .ok d ∧ d.name = c.name) ∧
      (t.ShowsJoin → w.column store name = .error .openJoinSchema)) ∧
    ∀ call store result after, (Layering.run w call).outcome store = (.ok result, after) →
      (∀ target ∈ Expr.placeholders call.clauses.exprs, ∃ c, t.column store target.2 = .ok c) ∧
      (¬ t.ShowsJoin → call.clauses.columns = none → ∀ name c, t.column store name = .ok c →
        ∃ d, result.resolutionSource.column after name = .ok d ∧ d.name = c.name) ∧
      ∀ id name, .placeholder id name ∈ call.clauses.columns.getD [] →
        ∀ schema, result.schema after = .ok schema →
          ∃ d, result.resolutionSource.column after name = .ok d := by
  refine ⟨fun _ _ => ⟨fun _ => wraps.column_inside, fun closed _ => wraps.column_outside closed,
    wraps.column_of_showsJoin⟩, ?_⟩
  intro call store result after ran
  obtain ⟨new, resolves, bindings, made⟩ := Layering.run_resolves ran
  rw [wraps.resolutionSource_eq] at resolves
  have within := Store.within_of_append bindings
  refine ⟨?_, ?_, ?_⟩
  · intro target listed
    obtain ⟨c, found, -⟩ := resolves.exists_column bindings listed
    exact ⟨c, found⟩
  · intro closed all name c found
    have later : t.column after name = .ok c := (column_stable within found name).trans found
    rcases made with ⟨rfl, -⟩ | ⟨id, rfl⟩
    · -- nothing was laid over it, so that the next call looks into the source once more
      rw [wraps.resolutionSource_eq]
      exact ⟨c, later, rfl⟩
    · rw [wraps.layer_eq]
      exact wraps.column_all closed rfl all later
  · intro id name listed schema given
    have among : Expr.placeholder id name ∈ call.clauses.exprs :=
      List.mem_append_left _ (List.mem_append_left _ listed)
    obtain ⟨c, found, bound⟩ := resolves.exists_column bindings
      (Expr.mem_placeholders.mpr ⟨_, among, Expr.mem_walk.mpr .self⟩)
    have later : t.column after name = .ok c := (column_stable within found name).trans found
    rcases made with ⟨rfl, none⟩ | ⟨_, rfl⟩
    · rw [none] at among
      cases among
    · rw [wraps.layer_eq] at given ⊢
      cases columns : call.clauses.columns with
      | none =>
          rw [columns] at listed
          cases listed
      | some es =>
          rw [columns] at listed
          exact wraps.column_selected rfl columns given listed bound later

/-! The latest orders as a CTE, and orders with refunds as an alias. -/

namespace NamedOrders

def orders : Relation :=
  .table ⟨⟨0⟩, .orders, some { columns := [("Id", .integer), ("Amount", .integer)] }⟩

def latest : Relation := .select { id := ⟨1⟩, table := some orders, limit := some 5 }

def named : Relation := .cte ⟨⟨2⟩, latest, some "latest", none⟩

def amount : Expr := .placeholder ⟨0⟩ "amount"

def positive : Layering := .filter [some (.binary .gt [amount, .value (.int 0)])]

def amounts : Layering := .select none [some amount]

def store : Store := { relations := 3, placeholders := 1 }

def after : Store :=
  { relations := 4, placeholders := 1, bindings := [(⟨0⟩, .column ⟨latest, "Amount"⟩)] }

def refunds : Relation := .table ⟨⟨1⟩, .refunds, some { columns := [("Reason", .text)] }⟩

def joined : Relation := .join ⟨⟨2⟩, [orders, refunds], .inner, [], none⟩

end NamedOrders

open NamedOrders in
theorem transparent_of_latest :
    latest.Wraps named ∧ ¬ latest.ShowsJoin ∧
    (∃ d, named.column store "amount" = .ok d ∧ d.name = "Amount") ∧
    (∃ result, (Layering.run named positive).outcome store = (.ok result, after) ∧
      ∃ d, result.resolutionSource.column after "id" = .ok d ∧ d.name = "Id") ∧
    ∃ result schema, (Layering.run named amounts).outcome store = (.ok result, after) ∧
      result.schema after = .ok schema ∧
      ∃ d, result.resolutionSource.column after "amount" = .ok d := by
  have wraps : latest.Wraps named := .cte _ _ _
  have closed : ¬ latest.ShowsJoin := by
    rintro ⟨j, shown, -⟩
    cases shown
  obtain ⟨columns, calls⟩ := wraps.transparent
  have filtered : (Layering.run named positive).outcome store =
      (.ok (named.layer ⟨3⟩ positive.clauses), after) := rfl
  have selected : (Layering.run named amounts).outcome store =
      (.ok (named.layer ⟨3⟩ amounts.clauses), after) := rfl
  exact ⟨wraps, closed, (columns store "amount").2.1 closed _ rfl,
    ⟨_, filtered, (calls _ _ _ _ filtered).2.1 closed rfl "id" _ rfl⟩,
    ⟨_, _, selected, rfl, (calls _ _ _ _ selected).2.2 _ "amount" (.head _) _ rfl⟩⟩

open NamedOrders in
/-- A join finds columns that its alias does not find, and a name that was selected under another
one is not found in the next call. -/
theorem column_hidden_of_joined :
    (∃ c, joined.column store "id" = .ok c) ∧
    (Relation.aliased ⟨⟨3⟩, joined, "j"⟩).column store "id" = .error .openJoinSchema ∧
    (∃ c, orders.column store "amount" = .ok c) ∧
    ∃ result after, (Layering.run (.aliased ⟨⟨3⟩, orders, "o"⟩)
        (.select none [some (.aliased amount "total")])).outcome store = (.ok result, after) ∧
      result.column after "amount" = .error (.unknownColumn "<select>" "amount") :=
  ⟨⟨_, rfl⟩, rfl, ⟨_, rfl⟩, _, _, rfl, rfl⟩

end SqlQuery
