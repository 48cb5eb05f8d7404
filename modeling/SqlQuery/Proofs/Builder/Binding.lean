import SqlQuery.Builder.Basic
import SqlQuery.Proofs.Outcome
import SqlQuery.Proofs.Query.Resolved

/-!
What the steps of putting a query together do to the bindings: none is lost, and new ones are
columns. A step that resolves expressions leaves no placeholder of theirs unbound.
-/

namespace SqlQuery

namespace Store

def Columnar (store : Store) : Prop :=
  ∀ id e, store.binding? id = some e → ∃ c, e = .column c

structure Step (before after : Store) : Prop where
  kept : ∀ id, before.Binds id → after.Binds id
  columnar : before.Columnar → after.Columnar

theorem Columnar.resolved {store : Store} (columnar : store.Columnar) : store.Resolved := by
  intro id e binding
  obtain ⟨c, rfl⟩ := columnar id e binding
  exact .column c

theorem Step.refl (store : Store) : store.Step store :=
  ⟨fun _ binds => binds, fun columnar => columnar⟩

theorem Step.trans {first second third : Store} (left : first.Step second)
    (right : second.Step third) : first.Step third :=
  ⟨fun id binds => right.kept id (left.kept id binds),
    fun columnar => right.columnar (left.columnar columnar)⟩

theorem Step.of_bindings {before after : Store} (same : after.bindings = before.bindings) :
    before.Step after := by
  have lookup : after.binding? = before.binding? := by
    funext id
    rw [binding?, same, binding?]
  refine ⟨?_, ?_⟩
  · intro id binds
    rwa [Binds, lookup]
  · intro columnar
    rwa [Columnar, lookup]

theorem binding?_bind (store : Store) (id : PlaceholderId) (e : Expr) (other : PlaceholderId) :
    (store.bind id e).binding? other =
      (store.binding? other).or (if other = id then some e else none) := by
  rw [binding?, bind, List.lookup_append, binding?]
  by_cases same : other = id
  · subst same
    simp
  · have differ : (other == id) = false := by simpa using same
    simp [List.lookup_cons, differ, same]

theorem binds_bind (store : Store) (id : PlaceholderId) (e : Expr) :
    (store.bind id e).Binds id := by
  rw [Binds, binding?_bind]
  simp

theorem Step.bind (store : Store) (id : PlaceholderId) (c : Column) :
    store.Step (store.bind id (.column c)) := by
  refine ⟨?_, ?_⟩
  · intro other binds
    rw [Binds, binding?_bind, Option.isSome_or, Bool.or_eq_true]
    exact .inl binds
  · intro columnar other e binding
    rw [binding?_bind, Option.or_eq_some_iff] at binding
    rcases binding with old | ⟨_, new⟩
    · exact columnar other e old
    · split at new
      · exact ⟨c, (Option.some.inj new).symm⟩
      · cases new

end Store

namespace Build

variable {α β : Type} {store : Store}

/-- A step keeps the bindings, and what it returns meets a condition in the store after it. -/
def Ensures (store : Store) (x : Build α) (post : α → Store → Prop) : Prop :=
  store.Step (x.outcome store).2 ∧ ∀ a after, x.outcome store = (.ok a, after) → post a after

namespace Ensures

variable {x : Build α} {post : α → Store → Prop}

theorem pure {a : α} (holds : post a store) : Ensures store (pure a) post := by
  refine ⟨.refl store, ?_⟩
  intro a' after same
  cases same
  exact holds

theorem throw (e : Error) : Ensures store (throw e) post :=
  ⟨.refl store, nofun⟩

theorem bind {f : α → Build β} {goal : β → Store → Prop} (first : Ensures store x post)
    (rest : ∀ a after, store.Step after → post a after → Ensures after (f a) goal) :
    Ensures store (x >>= f) goal := by
  obtain ⟨step, holds⟩ := first
  rcases outcome : x.outcome store with ⟨e | a, middle⟩
  · rw [Ensures, ExceptT.outcome_bind_of_error outcome]
    rw [outcome] at step
    exact ⟨step, nofun⟩
  · rw [Ensures, ExceptT.outcome_bind_of_ok outcome]
    rw [outcome] at step
    obtain ⟨later, reached⟩ := rest a middle step (holds a middle outcome)
    exact ⟨step.trans later, reached⟩

theorem mono {goal : α → Store → Prop} (holds : Ensures store x post)
    (weaker : ∀ a after, store.Step after → post a after → goal a after) :
    Ensures store x goal := by
  refine ⟨holds.1, ?_⟩
  intro a after outcome
  have step := holds.1
  rw [outcome] at step
  exact weaker a after step (holds.2 a after outcome)

/-- A loop ensures for all items what its body ensures for each, if that is not lost later. -/
theorem forM {body : α → Build PUnit} (each : ∀ a store, Ensures store (body a) fun _ => post a)
    (stable : ∀ a before after, Store.Step before after → post a before → post a after)
    (items : List α) :
    Ensures store (items.forM body) fun _ after => ∀ a ∈ items, post a after := by
  induction items generalizing store with
  | nil => exact pure nofun
  | cons a items ih =>
      apply (each a store).bind
      intro _ middle _ first
      apply ih.mono
      intro _ after step others
      rw [List.forall_mem_cons]
      exact ⟨stable a middle after step first, others⟩

end Ensures

theorem newRelationId_ensures : Ensures store newRelationId fun _ _ => True :=
  ⟨.of_bindings rfl, fun _ _ _ => trivial⟩

theorem bind_outcome (id : PlaceholderId) (name : String) (e : Expr) (store : Store) :
    (bind id name e).outcome store =
      match store.binding? id with
      | some _ => (.error (.alreadyResolved name), store)
      | none => (.ok (), store.bind id e) := by
  apply (ExceptT.outcome_bind_of_ok rfl).trans
  cases store.binding? id <;> rfl

theorem column_outcome (source : Relation) (name : String) (store : Store) :
    (column source name).outcome store = ((source.column store name).map Expr.column, store) := by
  change ((liftM (source.column store name) : Build Column) >>=
    fun c => (Pure.pure (Expr.column c) : Build Expr)).outcome store = _
  cases source.column store name <;> rfl

theorem bind_ensures (id : PlaceholderId) (name : String) (c : Column) :
    Ensures store (bind id name (.column c)) fun _ after => after.Binds id := by
  rw [Ensures, bind_outcome]
  cases store.binding? id with
  | some e =>
      refine ⟨.refl store, ?_⟩
      intro _ after same
      cases same
  | none =>
      refine ⟨.bind store id c, ?_⟩
      intro _ after same
      cases same
      exact store.binds_bind id (.column c)

theorem column_ensures (source : Relation) (name : String) :
    Ensures store (column source name) fun e _ => ∃ c, e = .column c := by
  rw [Ensures, column_outcome]
  refine ⟨.refl store, ?_⟩
  intro e after same
  cases found : source.column store name with
  | error e => cases found ▸ same
  | ok c =>
      cases found ▸ same
      exact ⟨c, rfl⟩

end Build

theorem Expr.mem_placeholders {exprs : List Expr} {id : PlaceholderId} {name : String} :
    (id, name) ∈ Expr.placeholders exprs ↔ ∃ e ∈ exprs, Expr.placeholder id name ∈ e.walk := by
  have shown : ∀ x : Expr, x.placeholder? = some (id, name) ↔ x = .placeholder id name := by
    intro x
    cases x <;> simp [Expr.placeholder?]
  simp [Expr.placeholders, List.mem_eraseDups, shown]

/-- The queries in an expression have no placeholders left. -/
def Expr.Embeds (bound : PlaceholderId → Prop) (e : Expr) : Prop :=
  ∀ r, Expr.subquery r ∈ e.walk → r.Resolved bound

theorem Build.resolve_ensures {store : Store} (source : Relation) {exprs : List Expr}
    (embedded : ∀ e ∈ exprs, e.Embeds store.Binds) :
    Ensures store (Build.resolve source exprs) fun _ after =>
      ∀ e ∈ exprs, e.Resolved after.Binds := by
  have each : ∀ (target : PlaceholderId × String) (store : Store),
      Ensures store (do Build.bind target.1 target.2 (← Build.column source target.2))
        fun _ after => after.Binds target.1 := by
    intro target store
    apply (Build.column_ensures source target.2).bind
    rintro e after _ ⟨c, rfl⟩
    exact Build.bind_ensures target.1 target.2 c
  have bound : Ensures store (Build.resolve source exprs) fun _ after =>
      ∀ target ∈ Expr.placeholders exprs, after.Binds target.1 :=
    Ensures.forM each (fun target _ _ step => step.kept target.1) _
  apply bound.mono
  intro _ after step binds e listed
  apply Expr.resolved_of_walk
  · intro id name within
    exact binds (id, name) (Expr.mem_placeholders.mpr ⟨e, listed, within⟩)
  · intro r within
    exact (embedded e listed r within).mono step.kept

end SqlQuery
