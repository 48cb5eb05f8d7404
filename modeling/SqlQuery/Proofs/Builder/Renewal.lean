import SqlQuery.Proofs.Builder.Resolution
import SqlQuery.Proofs.Query.Lookup

/-!
The relations that a step makes. Where a query holds a relation is followed through everything: its
sources, the queries in its expressions and the owners of its columns. A step gives a new number to
the relation that it makes, and everything else in it was known before.
-/

namespace SqlQuery

/-! Where relations occur. Other than for the text of a query, the relation that a column belongs
to is part of the column here. -/

mutual

inductive Expr.Holds : Expr → Relation → Prop
  | owner {c : Column} {r : Relation} : Relation.Holds c.source r → Expr.Holds (.column c) r
  | subquery {s r : Relation} : Relation.Holds s r → Expr.Holds (.subquery s) r
  | child {e c : Expr} {r : Relation} : c ∈ e.children → Expr.Holds c r → Expr.Holds e r

inductive Relation.Holds : Relation → Relation → Prop
  | self (r : Relation) : Relation.Holds r r
  | source {t s r : Relation} : s ∈ t.sources → Relation.Holds s r → Relation.Holds t r
  | expr {t : Relation} {e : Expr} {r : Relation} :
      e ∈ t.exprs → Expr.Holds e r → Relation.Holds t r

end

mutual

theorem Expr.Holds.trans {e : Expr} {s r : Relation} : e.Holds s → s.Holds r → e.Holds r
  | .owner outer, inner => .owner (outer.trans inner)
  | .subquery outer, inner => .subquery (outer.trans inner)
  | .child listed outer, inner => .child listed (outer.trans inner)

theorem Relation.Holds.trans {t s r : Relation} : t.Holds s → s.Holds r → t.Holds r
  | .self _, inner => inner
  | .source listed outer, inner => .source listed (outer.trans inner)
  | .expr listed outer, inner => .expr listed (outer.trans inner)

end

def Statement.tables : Statement → List Table
  | .create s => [s.table]
  | .drop s => [s.table]
  | .truncate t => [t]
  | .insert s => [s.table]
  | .commit => []
  | .explain _ => []

def Node.Holds : Node → Relation → Prop
  | .expr e, r => e.Holds r
  | .relation t, r => t.Holds r
  | .statement s, r => ∃ t ∈ s.tables.map .table ++ s.sources, Relation.Holds t r

theorem Node.Holds.trans {node : Node} {s r : Relation} (outer : node.Holds s) (inner : s.Holds r) :
    node.Holds r := by
  cases node with
  | expr e => exact Expr.Holds.trans outer inner
  | relation t => exact Relation.Holds.trans outer inner
  | statement statement =>
      obtain ⟨t, listed, outer⟩ := outer
      exact ⟨t, listed, outer.trans inner⟩

/-! Nodes of known relations. -/

section

variable (known : Relation → Prop)

def Expr.HoldsOnly (e : Expr) : Prop :=
  ∀ r, e.Holds r → known r

def Relation.HoldsOnly (t : Relation) : Prop :=
  ∀ r, t.Holds r → known r

def Node.HoldsOnly (node : Node) : Prop :=
  ∀ r, node.Holds r → known r

end

variable {known : Relation → Prop}

namespace Relation.HoldsOnly

variable {t : Relation}

theorem sources (only : t.HoldsOnly known) : ∀ s ∈ t.sources, s.HoldsOnly known :=
  fun _ listed r inner => only r (.source listed inner)

theorem exprs (only : t.HoldsOnly known) : ∀ e ∈ t.exprs, e.HoldsOnly known :=
  fun _ listed r inner => only r (.expr listed inner)

theorem of_parts (here : known t) (sources : ∀ s ∈ t.sources, s.HoldsOnly known)
    (exprs : ∀ e ∈ t.exprs, e.HoldsOnly known) : t.HoldsOnly known := by
  intro r held
  cases held with
  | self => exact here
  | source listed inner => exact sources _ listed r inner
  | expr listed inner => exact exprs _ listed r inner

theorem resolutionSource (only : t.HoldsOnly known) : t.resolutionSource.HoldsOnly known := by
  cases t with
  | aliased a => exact only.sources a.source (List.mem_singleton_self _)
  | cte c => exact only.sources c.source (List.mem_singleton_self _)
  | _ => exact only

end Relation.HoldsOnly

theorem Node.HoldsOnly.sources {s : Statement} (only : (Node.statement s).HoldsOnly known) :
    ∀ t ∈ s.sources, t.HoldsOnly known :=
  fun t listed r inner => only r ⟨t, List.mem_append_right _ listed, inner⟩

namespace Expr.HoldsOnly

variable {e : Expr}

theorem children (only : e.HoldsOnly known) : ∀ c ∈ e.children, c.HoldsOnly known :=
  fun _ listed r inner => only r (.child listed inner)

theorem subquery {t : Relation} (only : (Expr.subquery t).HoldsOnly known) : t.HoldsOnly known :=
  fun r inner => only r (.subquery inner)

theorem of_children (ownerless : ∀ c, e ≠ .column c) (plain : ∀ t, e ≠ .subquery t)
    (children : ∀ c ∈ e.children, c.HoldsOnly known) : e.HoldsOnly known := by
  intro r held
  cases held with
  | owner => exact absurd rfl (ownerless _)
  | subquery => exact absurd rfl (plain _)
  | child listed inner => exact children _ listed r inner

theorem owner {c : Column} (only : (Expr.column c).HoldsOnly known) : known c.source :=
  only c.source (.owner (.self c.source))

end Expr.HoldsOnly

theorem Expr.HoldsOnly.column {c : Column} (only : c.source.HoldsOnly known) :
    (Expr.column c).HoldsOnly known := by
  intro r held
  cases held with
  | owner inner => exact only r inner
  | child listed _ => cases listed

theorem Relation.HoldsOnly.column {store : Store} {source : Relation} {name : String} {c : Column}
    (only : source.HoldsOnly known) (found : source.column store name = .ok c) :
    (Expr.column c).HoldsOnly known := by
  apply Expr.HoldsOnly.column
  rcases source.column_source found with same | joined
  · rwa [same]
  · exact only.sources c.source joined

/-! What a step does to the store, and the relations that it makes. -/

/-- No number is given out twice, and new bindings are columns of known relations. -/
structure Store.Advance (known : Relation → Prop) (before after : Store) : Prop where
  relations : before.relations ≤ after.relations
  bindings : ∀ binding ∈ after.bindings,
    binding ∈ before.bindings ∨ binding.2.HoldsOnly known

/-- A relation with a number given out between two stores, made of known relations. -/
structure Relation.New (known : Relation → Prop) (before after : Store) (r : Relation) : Prop where
  least : before.relations ≤ r.id.number
  below : r.id.number < after.relations
  sources : ∀ s ∈ r.sources, s.HoldsOnly known
  exprs : ∀ e ∈ r.exprs, e.HoldsOnly known

theorem Store.Advance.refl (store : Store) : store.Advance known store :=
  ⟨Nat.le_refl _, fun _ => .inl⟩

theorem Store.Advance.trans {first second third : Store} (left : first.Advance known second)
    (right : second.Advance known third) : first.Advance known third := by
  refine ⟨Nat.le_trans left.relations right.relations, ?_⟩
  intro binding listed
  rcases right.bindings binding listed with earlier | new
  · exact left.bindings binding earlier
  · exact .inr new

theorem Relation.New.of_advance {before middle after : Store} {r : Relation}
    (new : r.New known middle after) (advance : before.Advance known middle) :
    r.New known before after :=
  { new with least := Nat.le_trans advance.relations new.least }

theorem Relation.New.holds {before after : Store} {r s : Relation} (new : r.New known before after)
    (held : r.Holds s) : s = r ∨ known s := by
  cases held with
  | self => exact .inl rfl
  | source listed inner => exact .inr (new.sources _ listed s inner)
  | expr listed inner => exact .inr (new.exprs _ listed s inner)

namespace Build

variable {α β : Type} {store : Store} {x : Build α}

theorem bind_advances {f : α → Build β} (first : store.Advance known (x.outcome store).2)
    (rest : ∀ a after, x.outcome store = (.ok a, after) →
      after.Advance known ((f a).outcome after).2) :
    store.Advance known ((x >>= f).outcome store).2 := by
  rcases outcome : x.outcome store with ⟨e | a, middle⟩
  · rw [ExceptT.outcome_bind_of_error outcome]
    rwa [outcome] at first
  · rw [ExceptT.outcome_bind_of_ok outcome]
    rw [outcome] at first
    exact first.trans (rest a middle outcome)

theorem resolve_advances {source : Relation} (only : source.HoldsOnly known)
    (exprs : List Expr) : store.Advance known ((resolve source exprs).outcome store).2 := by
  rw [resolve]
  induction Expr.placeholders exprs generalizing store with
  | nil => exact .refl store
  | cons target rest ih =>
      refine bind_advances (bind_advances ?_ ?_) fun _ _ _ => ih
      · rw [column_outcome]
        exact .refl store
      · intro e after found
        rw [column_outcome] at found
        cases column : source.column store target.2 with
        | error e => cases column ▸ found
        | ok c =>
            cases column ▸ found
            rw [bind_outcome]
            split
            · exact .refl store
            · refine ⟨Nat.le_refl _, ?_⟩
              intro binding listed
              rcases List.mem_append.mp listed with old | new
              · exact .inl old
              · cases List.mem_singleton.mp new
                exact .inr (only.column column)

/-- A step that advances the store, and gives a new relation where it gives one. -/
def Renews (known : Relation → Prop) (relation : α → Relation) (x : Build α) : Prop :=
  ∀ store, store.Advance known (x.outcome store).2 ∧
    ∀ a after, x.outcome store = (.ok a, after) → (relation a).New known store after

namespace Renews

variable {relation : α → Relation}

theorem throw (e : Error) : Renews known relation (throw e) :=
  fun store => ⟨.refl store, nofun⟩

/-- A relation of known parts under the next number. -/
theorem make {make : RelationId → α} (numbered : ∀ id, (relation (make id)).id = id)
    (sources : ∀ id, ∀ s ∈ (relation (make id)).sources, s.HoldsOnly known)
    (exprs : ∀ id, ∀ e ∈ (relation (make id)).exprs, e.HoldsOnly known) :
    Renews known relation (do return make (← newRelationId)) := by
  intro store
  have run : (do return make (← newRelationId) : Build α).outcome store =
      (.ok (make ⟨store.relations⟩), { store with relations := store.relations + 1 }) := rfl
  rw [run]
  refine ⟨⟨Nat.le_succ _, fun _ => .inl⟩, ?_⟩
  intro a after same
  cases same
  exact
    { least := by rw [numbered]
      below := by rw [numbered]; exact Nat.lt_succ_self _
      sources := sources _
      exprs := exprs _ }

theorem after_resolve {source : Relation} {exprs : List Expr} (only : source.HoldsOnly known)
    (renews : Renews known relation x) : Renews known relation (do resolve source exprs; x) := by
  intro store
  refine ⟨bind_advances (resolve_advances only exprs) fun _ after _ => (renews after).1, ?_⟩
  intro a after made
  obtain ⟨_, middle, resolved, made⟩ := ExceptT.outcome_bind_eq_ok.mp made
  have advance : store.Advance known middle := by
    have advance : store.Advance known ((resolve source exprs).outcome store).2 :=
      resolve_advances only exprs
    rwa [resolved] at advance
  exact ((renews middle).2 a after made).of_advance advance

end Renews

section

variable {r : Relation}

theorem layer_renews {clauses : Clauses} (only : r.HoldsOnly known)
    (laid : ∀ e ∈ clauses.exprs, e.HoldsOnly known) :
    Renews known (fun r => r) (layer r clauses) := by
  have around : ∀ id, (∀ s ∈ (Relation.select (clauses.wrap id r)).sources, s.HoldsOnly known) ∧
      ∀ e ∈ (Relation.select (clauses.wrap id r)).exprs, e.HoldsOnly known := by
    intro id
    refine ⟨List.forall_mem_singleton.mpr only, ?_⟩
    intro e listed
    apply laid e
    simpa [Relation.exprs, SelectOf.exprs, Clauses.wrap, Clauses.exprs] using listed
  have parts : ∀ id, (r.layer id clauses).id = id ∧
      (∀ s ∈ (r.layer id clauses).sources, s.HoldsOnly known) ∧
      ∀ e ∈ (r.layer id clauses).exprs, e.HoldsOnly known := by
    intro id
    cases r with
    | select s =>
        rw [Relation.layer]
        split
        · refine ⟨rfl, only.sources, ?_⟩
          intro e listed
          rcases SelectOf.mem_exprs_of_absorb listed with own | added
          · exact only.exprs e own
          · exact laid e added
        · exact ⟨rfl, around id⟩
    | _ => exact ⟨rfl, around id⟩
  exact .make (fun id => (parts id).1) (fun id => (parts id).2.1) fun id => (parts id).2.2

theorem resolve_layer_renews {exprs : List Expr} {clauses : Clauses} (only : r.HoldsOnly known)
    (given : ∀ e ∈ exprs, e.HoldsOnly known) (among : clauses.exprs ⊆ exprs) :
    Renews known (fun r => r) (do resolve r.resolutionSource exprs; layer r clauses) :=
  .after_resolve only.resolutionSource (layer_renews only fun e listed => given e (among listed))

theorem selectWith_renews {columns : Arguments} (distinct : Option Bool) (only : r.HoldsOnly known)
    (given : ∀ e ∈ columns.present, e.HoldsOnly known) :
    Renews known (fun r => r) (selectWith distinct r columns) := by
  apply resolve_layer_renews only given
  cases columns.present with
  | nil => exact List.nil_subset _
  | cons e es => simp [Clauses.exprs]

theorem filter_renews {predicates : Arguments} (only : r.HoldsOnly known)
    (given : ∀ e ∈ predicates.present, e.HoldsOnly known) (some : predicates.present ≠ []) :
    Renews known (fun r => r) (filter r predicates) := by
  rw [filter]
  split
  · next none => exact absurd none some
  · apply resolve_layer_renews only given
    simp [Clauses.exprs]

theorem orderBy_renews {exprs : Arguments} (only : r.HoldsOnly known)
    (given : ∀ e ∈ exprs.present, e.HoldsOnly known) (some : exprs.present ≠ []) :
    Renews known (fun r => r) (orderBy r exprs) := by
  rw [orderBy]
  split
  · next none => exact absurd none some
  · apply resolve_layer_renews only given
    simp [Clauses.exprs]

theorem on_renews {j : Join} {predicates : Arguments} (only : (Relation.join j).HoldsOnly known)
    (given : ∀ e ∈ predicates.present, e.HoldsOnly known) (some : predicates.present ≠ []) :
    Renews known Relation.join (on j predicates) := by
  rw [on]
  split
  · next none => exact absurd none some
  · apply Renews.after_resolve only
    refine .make (fun _ => rfl) (fun _ => only.sources) ?_
    intro id e listed
    have own := only.exprs e
    simp only [Relation.exprs, List.mem_append] at listed own
    rcases listed with (kept | new) | column
    · exact own (.inl kept)
    · exact given e new
    · exact own (.inr column)

theorem selectFromJoin_renews {j : Join} {columns : Arguments}
    (only : (Relation.join j).HoldsOnly known)
    (given : ∀ e ∈ columns.present, e.HoldsOnly known) :
    Renews known (fun r => r) (selectFromJoin j columns) := by
  rw [selectFromJoin]
  split
  · exact selectWith_renews none only given
  · apply Renews.after_resolve only
    refine .make (fun _ => rfl) (fun _ => only.sources) ?_
    intro id e listed
    rcases List.mem_append.mp listed with kept | new
    · exact only.exprs e (List.mem_append_left _ kept)
    · exact given e new

theorem grouping_renews {keys values : List Expr} (only : r.HoldsOnly known)
    (given : ∀ e ∈ keys ++ values, e.HoldsOnly known) :
    Renews known Relation.grouping (grouping r keys values) := by
  rw [grouping]
  split
  · exact .throw _
  · refine .make (fun _ => rfl) (fun _ => List.forall_mem_singleton.mpr only) ?_
    intro id
    simpa [Relation.exprs] using given

theorem having_renews {g : Grouping} {predicates : Arguments}
    (only : (Relation.grouping g).HoldsOnly known)
    (given : ∀ e ∈ predicates.present, e.HoldsOnly known) (some : predicates.present ≠ []) :
    Renews known Relation.grouping (having g predicates) := by
  rw [having]
  split
  · next none => exact absurd none some
  · have table := only.sources g.table (List.mem_singleton_self _)
    apply Renews.after_resolve table.resolutionSource
    refine .make (fun _ => rfl) (fun _ => only.sources) ?_
    intro id e listed
    rw [Relation.exprs, ← List.append_assoc] at listed
    rcases List.mem_append.mp listed with own | new
    · exact only.exprs e own
    · exact given e new

theorem selectStar_renews {source : Option Relation}
    (only : ∀ r ∈ source.toList, r.HoldsOnly known) :
    Renews known Relation.select (selectStar source) :=
  .make (fun _ => rfl) (fun _ => only) fun _ => List.forall_mem_nil _

theorem columnsOnly_renews {columns : List Expr} (given : ∀ e ∈ columns, e.HoldsOnly known) :
    Renews known Relation.select (columnsOnly columns) := by
  have direct : columnsOnly columns = (do
      return { id := ← newRelationId, table := none, columns := some columns }) :=
    ExceptT.ext_outcome fun _ => rfl
  rw [direct]
  refine .make (fun _ => rfl) (fun _ => List.forall_mem_nil _) ?_
  intro id
  simpa [Relation.exprs, SelectOf.exprs] using given

theorem countRows_renews (only : r.HoldsOnly known) :
    Renews known Relation.select (countRows r) := by
  have direct : countRows r = (do
      return { id := ← newRelationId, table := some r, columns := some [.count none false] }) :=
    ExceptT.ext_outcome fun _ => rfl
  rw [direct]
  refine .make (fun _ => rfl) (fun _ => List.forall_mem_singleton.mpr only) ?_
  intro id e listed s held
  cases List.mem_singleton.mp listed
  cases held with
  | child listed _ => cases listed

end

end Build

end SqlQuery
