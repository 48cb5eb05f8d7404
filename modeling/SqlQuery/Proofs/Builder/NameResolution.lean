import SqlQuery.Proofs.Builder.Transparency
import SqlQuery.Proofs.Query.Walk

/-!
The binding of names. A placeholder is reached through the children of expressions, so neither an
embedded query nor the relation of a column is entered. Main statement: a list of expressions can
be resolved if and only if every placeholder that is reached is unbound and the relation has its
column, and then these placeholders are bound to these columns and no other one changes.
-/

namespace SqlQuery

theorem nodup_eraseDups {α : Type} [BEq α] [LawfulBEq α] (items : List α) :
    items.eraseDups.Nodup := by
  induction items with
  | nil => exact List.nodup_nil
  | cons a items ih =>
      rw [Rows.eraseDups_cons_filter, List.nodup_cons]
      refine ⟨?_, ih.filter _⟩
      intro again
      simp at again

namespace Expr

variable {exprs : List Expr} {names : PlaceholderId → String} {id : PlaceholderId}

def Reaches (exprs : List Expr) (id : PlaceholderId) : Prop :=
  ∃ e ∈ exprs, ∃ name, (placeholder id name).Within e

/-- A placeholder has one name, wherever it stands in the expressions. -/
def Named (names : PlaceholderId → String) (exprs : List Expr) : Prop :=
  ∀ e ∈ exprs, ∀ id name, (placeholder id name).Within e → name = names id

theorem reaches_iff_mem : Reaches exprs id ↔ id ∈ (placeholders exprs).map Prod.fst := by
  constructor
  · intro reached
    obtain ⟨e, listed, name, within⟩ := reached
    have target := mem_placeholders.mpr ⟨e, listed, mem_walk.mpr within⟩
    exact List.mem_map_of_mem target
  · intro listed
    obtain ⟨⟨_, name⟩, target, rfl⟩ := List.mem_map.mp listed
    obtain ⟨e, listed, visited⟩ := mem_placeholders.mp target
    exact ⟨e, listed, name, mem_walk.mp visited⟩

theorem named_iff :
    Named names exprs ↔ ∀ target ∈ placeholders exprs, target.2 = names target.1 := by
  constructor
  · intro named target listed
    obtain ⟨e, listed, visited⟩ := mem_placeholders.mp listed
    exact named e listed target.1 target.2 (mem_walk.mp visited)
  · intro named e listed id name within
    exact named (id, name) (mem_placeholders.mpr ⟨e, listed, mem_walk.mpr within⟩)

theorem Named.distinct (named : Named names exprs) :
    ((placeholders exprs).map Prod.fst).Nodup := by
  apply List.Nodup.map_on _ (nodup_eraseDups _)
  intro first inFirst second inSecond same
  apply Prod.ext same
  rw [named_iff.mp named first inFirst, named_iff.mp named second inSecond, same]

theorem Named.reaches_iff (named : Named names exprs) (id : PlaceholderId) :
    Reaches exprs id ↔ (id, names id) ∈ placeholders exprs := by
  rw [reaches_iff_mem, List.mem_map]
  constructor
  · intro reached
    obtain ⟨⟨_, name⟩, listed, rfl⟩ := reached
    rwa [← named_iff.mp named _ listed]
  · intro listed
    exact ⟨_, listed, rfl⟩

end Expr

namespace Relation

variable {source : Relation} {store after : Store} {targets : List (PlaceholderId × String)}
  {new : List (PlaceholderId × Expr)}

theorem exists_gives_iff :
    (∃ new, List.Forall₂ (source.Gives store) targets new) ↔
      ∀ target ∈ targets, ∃ c, source.column store target.2 = .ok c := by
  induction targets with
  | nil => exact ⟨fun _ => List.forall_mem_nil _, fun _ => ⟨[], .nil⟩⟩
  | cons target targets ih =>
      rw [List.forall_mem_cons, ← ih]
      constructor
      · intro given
        obtain ⟨_, given⟩ := given
        obtain ⟨_, rest, ⟨c, found, _⟩, others, _⟩ := List.forall₂_cons_left_iff.mp given
        exact ⟨⟨c, found⟩, rest, others⟩
      · intro given
        obtain ⟨⟨c, found⟩, rest, others⟩ := given
        exact ⟨(target.1, .column c) :: rest, .cons ⟨c, found, rfl⟩ others⟩

theorem exists_resolves_iff (distinct : (targets.map Prod.fst).Nodup) :
    (∃ new, source.Resolves store targets new) ↔ ∀ target ∈ targets,
      store.binding? target.1 = none ∧ ∃ c, source.column store target.2 = .ok c := by
  constructor
  · intro resolved target listed
    obtain ⟨new, resolves⟩ := resolved
    exact ⟨resolves.unbound target listed,
      exists_gives_iff.mp ⟨new, resolves.columns⟩ target listed⟩
  · intro ready
    obtain ⟨new, given⟩ := exists_gives_iff.mpr fun target listed => (ready target listed).2
    exact ⟨new, given, distinct, fun target listed => (ready target listed).1⟩

theorem Resolves.binding?_of_not_mem (resolves : source.Resolves store targets new)
    (bindings : after.bindings = store.bindings ++ new) {id : PlaceholderId}
    (other : id ∉ targets.map Prod.fst) : after.binding? id = store.binding? id := by
  have unlisted : new.lookup id = none := by
    rw [List.lookup_eq_none_iff]
    intro binding listed
    rw [← Gives.map_fst resolves.columns] at other
    have differ : id ≠ binding.1 := by
      intro same
      exact other (same ▸ List.mem_map_of_mem listed)
    simpa using differ
  rw [Store.binding?_of_append bindings, unlisted, Option.or_none]

end Relation

namespace Build

variable {names : PlaceholderId → String} {exprs : List Expr} {source : Relation}
  {store after : Store}

theorem exists_resolve_iff (named : Expr.Named names exprs) :
    (∃ after, (resolve source exprs).outcome store = (.ok (), after)) ↔
      ∀ id, Expr.Reaches exprs id →
        store.binding? id = none ∧ ∃ c, source.column store (names id) = .ok c := by
  have resolves : (∃ after, (resolve source exprs).outcome store = (.ok (), after)) ↔
      ∃ new, source.Resolves store (Expr.placeholders exprs) new := by
    simp only [resolve_eq_ok]
    rw [exists_comm]
    simp only [exists_and_left, exists_eq, and_true]
  rw [resolves, Relation.exists_resolves_iff named.distinct]
  constructor
  · intro ready id reached
    exact ready (id, names id) ((named.reaches_iff id).mp reached)
  · intro ready target listed
    have name := Expr.named_iff.mp named target listed
    rw [name]
    exact ready target.1 ((named.reaches_iff target.1).mpr (name ▸ listed))

theorem binding?_of_resolve (named : Expr.Named names exprs)
    (resolved : (resolve source exprs).outcome store = (.ok (), after)) {id : PlaceholderId}
    (reached : Expr.Reaches exprs id) :
    ∃ c, source.column store (names id) = .ok c ∧ after.binding? id = some (.column c) := by
  obtain ⟨new, resolves, rfl⟩ := resolve_eq_ok.mp resolved
  exact resolves.exists_column rfl ((named.reaches_iff id).mp reached)

theorem binding?_of_not_reaches
    (resolved : (resolve source exprs).outcome store = (.ok (), after)) {id : PlaceholderId}
    (outside : ¬ Expr.Reaches exprs id) : after.binding? id = store.binding? id := by
  obtain ⟨new, resolves, rfl⟩ := resolve_eq_ok.mp resolved
  apply resolves.binding?_of_not_mem rfl
  rwa [← Expr.reaches_iff_mem]

/-- Expressions are resolved if and only if every placeholder that is reached in them is unbound and
has a column. Each of these placeholders is then bound to its column, however often it stands there,
and all others stay as they are. -/
theorem resolve_exact (named : Expr.Named names exprs) (source : Relation) (store : Store) :
    ((∃ after, (resolve source exprs).outcome store = (.ok (), after)) ↔
      ∀ id, Expr.Reaches exprs id →
        store.binding? id = none ∧ ∃ c, source.column store (names id) = .ok c) ∧
    ∀ after, (resolve source exprs).outcome store = (.ok (), after) →
      (∀ id, Expr.Reaches exprs id → ∃ c, source.column store (names id) = .ok c ∧
        after.binding? id = some (.column c)) ∧
      ∀ id, ¬ Expr.Reaches exprs id → after.binding? id = store.binding? id := by
  refine ⟨exists_resolve_iff named, ?_⟩
  intro after resolved
  refine ⟨?_, ?_⟩
  · intro id reached
    exact binding?_of_resolve named resolved reached
  · intro id outside
    exact binding?_of_not_reaches resolved outside

end Build

/-! Amounts that are named twice, beside a query and a column whose relation has its own names. -/

namespace AmountsOfOrders

def orders : Relation :=
  .table ⟨⟨0⟩, .orders, some { columns := [("Id", .integer), ("Amount", .integer)] }⟩

def amount : Expr := .placeholder ⟨0⟩ "amount"

/-- Orders with one more name, which is not bound. -/
def filtered (id : RelationId) (own : PlaceholderId) : Relation :=
  .select { id, table := some orders, filters := [.placeholder own "id"] }

def exprs : List Expr :=
  [.binary .add [amount, amount],
    .isIn amount [.subquery (filtered ⟨1⟩ ⟨1⟩), .column ⟨filtered ⟨2⟩ ⟨2⟩, "Id"⟩]]

def names (id : PlaceholderId) : String :=
  if id = ⟨0⟩ then "amount" else "id"

def store : Store := { relations := 3, placeholders := 3 }

end AmountsOfOrders

open AmountsOfOrders in
theorem resolve_exact_of_amounts :
    Expr.Named names exprs ∧ Expr.Reaches exprs ⟨0⟩ ∧
    (∃ after, (Build.resolve orders exprs).outcome store = (.ok (), after) ∧
      after.binding? ⟨0⟩ = some (.column ⟨orders, "Amount"⟩) ∧
      after.binding? ⟨1⟩ = none ∧ after.binding? ⟨2⟩ = none) ∧
    ¬ ∃ after, (Build.resolve orders exprs).outcome (store.bind ⟨0⟩ (.column ⟨orders, "Id"⟩)) =
      (.ok (), after) := by
  have targets : Expr.placeholders exprs = [(⟨0⟩, "amount")] := rfl
  have named : Expr.Named names exprs := by
    rw [Expr.named_iff, targets, List.forall_mem_singleton]
    rfl
  have reached : ∀ id, Expr.Reaches exprs id ↔ id = ⟨0⟩ := by
    intro id
    rw [Expr.reaches_iff_mem, targets]
    exact List.mem_singleton
  obtain ⟨success, bound⟩ := Build.resolve_exact named orders store
  refine ⟨named, (reached _).mpr rfl, ?_, ?_⟩
  · obtain ⟨after, resolved⟩ := success.mpr fun id within => by
      cases (reached id).mp within
      exact ⟨rfl, _, rfl⟩
    obtain ⟨own, others⟩ := bound after resolved
    obtain ⟨c, found, binding⟩ := own ⟨0⟩ ((reached _).mpr rfl)
    cases found
    exact ⟨after, resolved, binding, others ⟨1⟩ (by simp [reached]), others ⟨2⟩ (by simp [reached])⟩
  · intro again
    have ready := (Build.resolve_exact named orders _).1.mp again
    cases (ready ⟨0⟩ ((reached _).mpr rfl)).1

end SqlQuery
