import SqlQuery.Builder.Statement
import SqlQuery.Proofs.Builder.Binding

/-!
Every step that makes a relation or a statement makes one without unbound placeholders, out of
relations without any and expressions whose embedded queries have none.
-/

namespace SqlQuery

variable {bound : PlaceholderId → Prop} {store : Store}

def Clauses.exprs (clauses : Clauses) : List Expr :=
  clauses.columns.getD [] ++ clauses.filters ++ clauses.orderBy

theorem SelectOf.mem_exprs_of_absorb {s : Select} {id : RelationId} {clauses : Clauses} {e : Expr}
    (listed : e ∈ (s.absorb id clauses).exprs) : e ∈ s.exprs ∨ e ∈ clauses.exprs := by
  have columns : e ∈ (clauses.columns.or s.columns).getD [] →
      e ∈ s.columns.getD [] ∨ e ∈ clauses.columns.getD [] := by
    cases clauses.columns with
    | none => exact .inl
    | some given => exact .inr
  have ordered : e ∈ (if clauses.orderBy.isEmpty then s.orderBy else clauses.orderBy) →
      e ∈ s.orderBy ∨ e ∈ clauses.orderBy := by
    split
    · exact .inl
    · exact .inr
  simp only [SelectOf.exprs, SelectOf.absorb, List.mem_append] at listed
  simp only [SelectOf.exprs, Clauses.exprs, List.mem_append]
  grind

theorem Relation.Resolved.layer {r : Relation} {clauses : Clauses} (resolved : r.Resolved bound)
    (laid : ∀ e ∈ clauses.exprs, e.Resolved bound) (id : RelationId) :
    (r.layer id clauses).Resolved bound := by
  have around : (Relation.select (clauses.wrap id r)).Resolved bound := by
    refine .mk _ ?_ ?_
    · intro source listed
      cases List.mem_singleton.mp listed
      exact resolved
    · intro e listed
      apply laid e
      simpa [Relation.exprs, SelectOf.exprs, Clauses.wrap, Clauses.exprs] using listed
  cases r with
  | select s =>
      rw [Relation.layer]
      split
      · refine .mk _ resolved.sources ?_
        intro e listed
        rcases SelectOf.mem_exprs_of_absorb listed with own | added
        · exact resolved.exprs e own
        · exact laid e added
      · exact around
  | _ => exact around

namespace Build

variable {α : Type}

/-- After the placeholders of expressions are bound, the expressions have none left, and neither
has the receiver. -/
theorem resolve_bind {source r : Relation} {exprs : List Expr} {rest : Build α}
    {post : α → Store → Prop} (resolved : r.Resolved store.Binds)
    (embedded : ∀ e ∈ exprs, e.Embeds store.Binds)
    (then_ensures : ∀ after, r.Resolved after.Binds → (∀ e ∈ exprs, e.Resolved after.Binds) →
      Ensures after rest post) :
    Ensures store (do resolve source exprs; rest) post := by
  apply (resolve_ensures source embedded).bind
  intro _ after step bound
  exact then_ensures after (resolved.mono step.kept) bound

/-- A relation with a new identity, made of parts without placeholders. -/
theorem newRelation_ensures {make : RelationId → α} {relation : α → Relation}
    (sources : ∀ id, ∀ r ∈ (relation (make id)).sources, r.Resolved store.Binds)
    (exprs : ∀ id, ∀ e ∈ (relation (make id)).exprs, e.Resolved store.Binds) :
    Ensures store (do return make (← newRelationId)) fun a after =>
      (relation a).Resolved after.Binds := by
  apply newRelationId_ensures.bind
  intro id after step _
  apply Ensures.pure
  exact .mk _ (fun r listed => (sources id r listed).mono step.kept)
    fun e listed => (exprs id e listed).mono step.kept

theorem table_ensures (path : Path) (schema : Option Schema) :
    Ensures store (table path schema) fun t after => (Relation.table t).Resolved after.Binds :=
  newRelation_ensures (fun _ => nofun) fun _ => nofun

theorem tableParam_ensures (name : String) :
    Ensures store (tableParam name) fun p after => (Relation.param p).Resolved after.Binds :=
  newRelation_ensures (fun _ => nofun) fun _ => nofun

theorem aliased_ensures {r : Relation} (resolved : r.Resolved store.Binds) (name : String) :
    Ensures store (aliased r name) fun a after => (Relation.aliased a).Resolved after.Binds :=
  newRelation_ensures (fun _ => List.forall_mem_singleton.mpr resolved) fun _ => nofun

theorem cte_ensures {r : Relation} (resolved : r.Resolved store.Binds) (name : Option String)
    (params : Option (List String)) :
    Ensures store (cte r name params) fun c after => (Relation.cte c).Resolved after.Binds :=
  newRelation_ensures (fun _ => List.forall_mem_singleton.mpr resolved) fun _ => nofun

theorem setOperation_ensures {left right : Relation} (operator : SetOperator)
    (resolved : ∀ r ∈ [left, right], r.Resolved store.Binds) :
    Ensures store (setOperation operator left right) fun o after =>
      (Relation.setOperation o).Resolved after.Binds :=
  newRelation_ensures (fun _ => resolved) fun _ => nofun

theorem join_ensures {sources : List Relation} (kind : JoinKind)
    (resolved : ∀ r ∈ sources, r.Resolved store.Binds) :
    Ensures store (join kind sources) fun j after => (Relation.join j).Resolved after.Binds :=
  newRelation_ensures (fun _ => resolved) fun _ => nofun

theorem selectStar_ensures (source : Option Relation) :
    Ensures store (selectStar source) fun s _ => ∃ id, s = { id, table := source } := by
  apply newRelationId_ensures.bind
  intro id after _ _
  exact .pure ⟨id, rfl⟩

theorem countRows_ensures {r : Relation} (resolved : r.Resolved store.Binds) :
    Ensures store (countRows r) fun s after => (Relation.select s).Resolved after.Binds := by
  apply (selectStar_ensures (some r)).bind
  rintro s after step ⟨id, rfl⟩
  apply Ensures.pure
  refine .mk _ ?_ ?_
  · exact List.forall_mem_singleton.mpr (resolved.mono step.kept)
  · exact List.forall_mem_singleton.mpr (.mk _ nofun nofun nofun)

theorem layer_ensures {r : Relation} {clauses : Clauses} (resolved : r.Resolved store.Binds)
    (laid : ∀ e ∈ clauses.exprs, e.Resolved store.Binds) :
    Ensures store (layer r clauses) fun r' after => r'.Resolved after.Binds := by
  apply newRelationId_ensures.bind
  intro id after step _
  apply Ensures.pure
  exact (resolved.layer laid id).mono step.kept

theorem resolve_layer_ensures {source r : Relation} {exprs : List Expr} {clauses : Clauses}
    (resolved : r.Resolved store.Binds) (embedded : ∀ e ∈ exprs, e.Embeds store.Binds)
    (among : clauses.exprs ⊆ exprs) :
    Ensures store (do resolve source exprs; layer r clauses) fun r' after =>
      r'.Resolved after.Binds := by
  apply resolve_bind resolved embedded
  intro after resolved laid
  exact layer_ensures resolved fun e listed => laid e (among listed)

theorem selectWith_ensures {r : Relation} {columns : Arguments} (distinct : Option Bool)
    (resolved : r.Resolved store.Binds) (embedded : ∀ e ∈ columns.present, e.Embeds store.Binds) :
    Ensures store (selectWith distinct r columns) fun r' after => r'.Resolved after.Binds := by
  apply resolve_layer_ensures resolved embedded
  cases columns.present with
  | nil => exact List.nil_subset _
  | cons e es => simp [Clauses.exprs]

theorem filter_ensures {r : Relation} {predicates : Arguments} (resolved : r.Resolved store.Binds)
    (embedded : ∀ e ∈ predicates.present, e.Embeds store.Binds) :
    Ensures store (filter r predicates) fun r' after => r'.Resolved after.Binds := by
  rw [filter]
  split
  · exact .pure resolved
  · apply resolve_layer_ensures resolved embedded
    simp [Clauses.exprs]

theorem orderBy_ensures {r : Relation} {exprs : Arguments} (resolved : r.Resolved store.Binds)
    (embedded : ∀ e ∈ exprs.present, e.Embeds store.Binds) :
    Ensures store (orderBy r exprs) fun r' after => r'.Resolved after.Binds := by
  rw [orderBy]
  split
  · exact .pure resolved
  · apply resolve_layer_ensures resolved embedded
    simp [Clauses.exprs]

theorem limit_ensures {r : Relation} (resolved : r.Resolved store.Binds) (limit : UInt64) :
    Ensures store (Build.limit r limit) fun r' after => r'.Resolved after.Binds :=
  layer_ensures resolved nofun

theorem on_ensures {j : Join} {predicates : Arguments}
    (resolved : (Relation.join j).Resolved store.Binds)
    (embedded : ∀ e ∈ predicates.present, e.Embeds store.Binds) :
    Ensures store (on j predicates) fun j' after => (Relation.join j').Resolved after.Binds := by
  rw [on]
  split
  · exact .pure resolved
  · apply resolve_bind resolved embedded
    intro after resolved added
    apply newRelation_ensures
    · exact fun _ => resolved.sources
    · intro id e listed
      simp only [Relation.exprs, List.mem_append] at listed
      have own := resolved.exprs e
      simp only [Relation.exprs, List.mem_append] at own
      rcases listed with (kept | new) | column
      · exact own (.inl kept)
      · exact added e new
      · exact own (.inr column)

theorem selectFromJoin_ensures {j : Join} {columns : Arguments}
    (resolved : (Relation.join j).Resolved store.Binds)
    (embedded : ∀ e ∈ columns.present, e.Embeds store.Binds) :
    Ensures store (selectFromJoin j columns) fun r after => r.Resolved after.Binds := by
  rw [selectFromJoin]
  split
  · exact selectWith_ensures none resolved embedded
  · apply resolve_bind resolved embedded
    intro after resolved added
    apply newRelation_ensures
    · exact fun _ => resolved.sources
    · intro id e listed
      rcases List.mem_append.mp listed with kept | new
      · exact resolved.exprs e (List.mem_append_left _ kept)
      · exact added e new

theorem groupBy_ensures {r : Relation} {keys values : Arguments}
    (resolved : r.Resolved store.Binds)
    (embedded : ∀ e ∈ keys.present ++ values.present, e.Embeds store.Binds) :
    Ensures store (groupBy r keys values) fun g after =>
      (Relation.grouping g).Resolved after.Binds := by
  apply resolve_bind resolved embedded
  intro after resolved grouped
  rw [grouping]
  split
  · exact .throw _
  · apply newRelation_ensures
    · exact fun _ => List.forall_mem_singleton.mpr resolved
    · intro id
      simpa [Relation.exprs] using grouped

theorem having_ensures {g : Grouping} {predicates : Arguments}
    (resolved : (Relation.grouping g).Resolved store.Binds)
    (embedded : ∀ e ∈ predicates.present, e.Embeds store.Binds) :
    Ensures store (having g predicates) fun g' after =>
      (Relation.grouping g').Resolved after.Binds := by
  rw [having]
  split
  · exact .pure resolved
  · apply resolve_bind resolved embedded
    intro after resolved added
    apply newRelation_ensures
    · exact fun _ => resolved.sources
    · intro id e listed
      rw [Relation.exprs, ← List.append_assoc] at listed
      rcases List.mem_append.mp listed with own | new
      · exact resolved.exprs e own
      · exact added e new

theorem statementSource_ensures {r : Relation} (resolved : r.Resolved store.Binds) :
    Ensures store (statementSource r) fun r' after => r'.Resolved after.Binds := by
  cases r with
  | table t =>
      apply (selectStar_ensures (some (.table t))).bind
      rintro s after step ⟨id, rfl⟩
      apply Ensures.pure
      exact .mk _ (List.forall_mem_singleton.mpr (resolved.mono step.kept)) nofun
  | _ => exact .pure resolved

theorem createAs_ensures {r : Relation} (t : Table) (resolved : r.Resolved store.Binds) :
    Ensures store (createAs t r) fun s after =>
      (Node.statement (.create s)).Resolved after.Binds := by
  apply (statementSource_ensures resolved).bind
  intro source after _ ready
  exact .pure (List.forall_mem_singleton.mpr ready)

theorem insertFrom_ensures {r : Relation} (t : Table) (resolved : r.Resolved store.Binds) :
    Ensures store (insertFrom t r) fun s after =>
      (Node.statement (.insert s)).Resolved after.Binds := by
  apply (statementSource_ensures resolved).bind
  intro source after _ ready
  exact .pure (List.forall_mem_singleton.mpr ready)

end Build

end SqlQuery
