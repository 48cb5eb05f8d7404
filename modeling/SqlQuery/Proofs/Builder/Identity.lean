import SqlQuery.Proofs.Builder.Construction
import SqlQuery.Proofs.Builder.Renewal

/-!
The identities of relations. A history is any number of requests, one after another, over relations
and expressions of earlier ones. Main statement: two relations of a history with the same identity
are one relation, wherever they occur, and a request gives back its receiver or a relation with an
identity that none has before it.
-/

namespace SqlQuery

/-- A relation occurs in a node, or behind a placeholder. -/
def Occurs (store : Store) (nodes : List Node) (r : Relation) : Prop :=
  (∃ node ∈ nodes, node.Holds r) ∨ ∃ binding ∈ store.bindings, binding.2.Holds r

theorem Occurs.holdsOnly {store : Store} {nodes : List Node} {r : Relation}
    (occurs : Occurs store nodes r) : r.HoldsOnly (Occurs store nodes) := by
  intro s inner
  rcases occurs with ⟨node, listed, outer⟩ | ⟨binding, listed, outer⟩
  · exact .inl ⟨node, listed, outer.trans inner⟩
  · exact .inr ⟨binding, listed, outer.trans inner⟩

variable {known : Relation → Prop}

/-! Requests. -/

inductive Build.Request where
  | call (call : Call)
  | withSchema (t : Table) (schema : Schema)
  | selectStar (source : Option Relation)
  | columnsOnly (columns : List Expr)
  | grouping (r : Relation) (keys values : List Expr)
  | column (r : Relation) (name : String)

namespace Build.Request

def run : Build.Request → Build Node
  | call c => c.run
  | withSchema t schema => return .relation (.table (← t.withSchema schema))
  | selectStar source => return .relation (.select (← Build.selectStar source))
  | columnsOnly columns => return .relation (.select (← Build.columnsOnly columns))
  | grouping r keys values => return .relation (.grouping (← Build.grouping r keys values))
  | column r name => return .expr (← Build.column r name)

/-- The relations that a request is made on. -/
def receivers : Build.Request → List Relation
  | call (.createAs t r) => [.table t, r]
  | call (.insertFrom t r) => [.table t, r]
  | call c => c.receivers
  | withSchema t _ => [.table t]
  | selectStar source => source.toList
  | columnsOnly _ => []
  | grouping r _ _ => [r]
  | column r _ => [r]

/-- The expressions that are given to a request. -/
def arguments : Build.Request → List Expr
  | call c => c.arguments
  | columnsOnly columns => columns
  | grouping _ keys values => keys ++ values
  | _ => []

/-- The receiver, if a request gives it back because all of its arguments are skipped. -/
def idle : Build.Request → Option Relation
  | call (.filter r predicates) => if predicates.present.isEmpty then some r else none
  | call (.orderBy r exprs) => if exprs.present.isEmpty then some r else none
  | call (.on j predicates) => if predicates.present.isEmpty then some (.join j) else none
  | call (.having g predicates) => if predicates.present.isEmpty then some (.grouping g) else none
  | _ => none

/-- The request is about relations that occur among the nodes or behind placeholders. -/
structure Over (store : Store) (nodes : List Node) (request : Build.Request) : Prop where
  receivers : ∀ r ∈ request.receivers, Occurs store nodes r
  arguments : ∀ e ∈ request.arguments, e.HoldsOnly (Occurs store nodes)

end Build.Request

/-- A node of known relations and at most one new one. Where it is a relation, it is the new one or
what is given back. -/
structure Node.Added (known : Relation → Prop) (before after : Store) (back : Option Relation)
    (node : Node) : Prop where
  parts : node.HoldsOnly known ∨
    ∃ r, Relation.New known before after r ∧ node.HoldsOnly fun s => s = r ∨ known s
  relation : ∀ r, node = .relation r →
    back = some r ∨ (back = none ∧ Relation.New known before after r)

def Build.Adds (known : Relation → Prop) (back : Option Relation) (x : Build Node) : Prop :=
  ∀ store, store.Advance known (x.outcome store).2 ∧
    ∀ node after, x.outcome store = (.ok node, after) → node.Added known store after back

namespace Build

variable {α : Type} {x : Build α} {relation : α → Relation} {r : Relation}

theorem Renews.adds (renews : Renews known relation x) :
    Adds known none (do return .relation (relation (← x))) := by
  intro store
  refine ⟨bind_advances (renews store).1 fun _ after _ => .refl after, ?_⟩
  intro node after made
  obtain ⟨a, middle, made, result⟩ := ExceptT.outcome_bind_eq_ok.mp made
  cases result
  have new := (renews store).2 a after made
  refine ⟨.inr ⟨relation a, new, fun _ => new.holds⟩, ?_⟩
  intro r same
  cases same
  exact .inr ⟨rfl, new⟩

theorem Adds.pure {node : Node} {back : Option Relation} (only : node.HoldsOnly known)
    (given : ∀ r, node = .relation r → back = some r) :
    Adds known back (Pure.pure node) := by
  intro store
  refine ⟨.refl store, ?_⟩
  intro node after made
  cases made
  exact ⟨.inl only, fun r same => .inl (given r same)⟩

/-- A step that gives its receiver back if it has no arguments, and else a new relation. -/
theorem Adds.of_arguments {exprs : List Expr} {back : Option Relation}
    (given : back = if exprs.isEmpty then some r else none) (only : r.HoldsOnly known)
    (idle : exprs = [] → (do return Node.relation (relation (← x))) = Pure.pure (.relation r))
    (renews : exprs ≠ [] → Renews known relation x) :
    Adds known back (do return .relation (relation (← x))) := by
  subst given
  cases exprs with
  | nil =>
      rw [idle rfl]
      exact .pure only fun s same => by rw [Node.relation.inj same]; rfl
  | cons e es => exact (renews (List.cons_ne_nil e es)).adds

theorem statementSource_renews (only : r.HoldsOnly known) (store : Store) :
    ∃ r' after, (statementSource r).outcome store = (.ok r', after) ∧
      store.Advance known after ∧ (r'.HoldsOnly known ∨ r'.New known store after) := by
  cases r with
  | table t =>
      have renews : Renews known Relation.select (selectStar (some (.table t))) :=
        selectStar_renews (List.forall_mem_singleton.mpr only)
      exact ⟨_, _, rfl, (renews store).1, .inr ((renews store).2 _ _ rfl)⟩
  | _ => exact ⟨_, _, rfl, .refl store, .inl only⟩

/-- A statement about a table with a query for its source. -/
theorem statement_adds {t : Table} {make : Relation → Statement}
    (tables : ∀ r, (make r).tables = [t]) (sources : ∀ r, (make r).sources = [r])
    (onTable : (Relation.table t).HoldsOnly known) (only : r.HoldsOnly known) :
    Adds known none (do return .statement (make (← statementSource r))) := by
  intro store
  obtain ⟨source, after, run, advance, known_or_new⟩ := statementSource_renews only store
  have outcome : (do return .statement (make (← statementSource r)) : Build Node).outcome store =
      (.ok (.statement (make source)), after) :=
    ExceptT.outcome_bind_of_ok run
  rw [outcome]
  refine ⟨advance, ?_⟩
  intro node after' same
  cases same
  refine ⟨?_, nofun⟩
  rcases known_or_new with only | new
  · left
    rintro s ⟨t', listed, held⟩
    simp only [tables, sources, List.map_cons, List.map_nil, List.cons_append, List.nil_append,
      List.mem_cons, List.not_mem_nil, or_false] at listed
    rcases listed with rfl | rfl
    · exact onTable s held
    · exact only s held
  · right
    refine ⟨source, new, ?_⟩
    rintro s ⟨t', listed, held⟩
    simp only [tables, sources, List.map_cons, List.map_nil, List.cons_append, List.nil_append,
      List.mem_cons, List.not_mem_nil, or_false] at listed
    rcases listed with rfl | rfl
    · exact .inr (onTable s held)
    · exact new.holds held

end Build

open Build in
theorem Build.Request.run_adds {request : Build.Request}
    (receivers : ∀ r ∈ request.receivers, r.HoldsOnly known)
    (arguments : ∀ e ∈ request.arguments, e.HoldsOnly known) :
    Adds known request.idle request.run := by
  have receiver : ∀ r, request.receivers = [r] → r.HoldsOnly known := by
    intro r only
    rw [only] at receivers
    exact List.forall_mem_singleton.mp receivers
  cases request with
  | call call =>
      cases call with
      | table path schema =>
          exact Renews.adds (.make (fun _ => rfl) (fun _ => List.forall_mem_nil _)
            fun _ => List.forall_mem_nil _)
      | tableParam name =>
          exact Renews.adds (.make (fun _ => rfl) (fun _ => List.forall_mem_nil _)
            fun _ => List.forall_mem_nil _)
      | cte r name params =>
          exact Renews.adds (.make (fun _ => rfl) (fun _ => receivers)
            fun _ => List.forall_mem_nil _)
      | aliased r name =>
          exact Renews.adds (.make (fun _ => rfl) (fun _ => receivers)
            fun _ => List.forall_mem_nil _)
      | join kind sources =>
          exact Renews.adds (.make (fun _ => rfl) (fun _ => receivers)
            fun _ => List.forall_mem_nil _)
      | setOperation operator left right =>
          exact Renews.adds (.make (fun _ => rfl) (fun _ => receivers)
            fun _ => List.forall_mem_nil _)
      | on j predicates =>
          refine Adds.of_arguments rfl (receiver _ rfl) ?_ (on_renews (receiver _ rfl) arguments)
          intro none
          rw [on, none]
          rfl
      | selectFromJoin j columns =>
          exact (selectFromJoin_renews (receiver _ rfl) arguments).adds
      | selectWith distinct r columns =>
          exact (selectWith_renews distinct (receiver r rfl) arguments).adds
      | filter r predicates =>
          refine Adds.of_arguments rfl (receiver r rfl) ?_
            (filter_renews (receiver r rfl) arguments)
          intro none
          rw [filter, none]
          rfl
      | orderBy r exprs =>
          refine Adds.of_arguments rfl (receiver r rfl) ?_
            (orderBy_renews (receiver r rfl) arguments)
          intro none
          rw [orderBy, none]
          rfl
      | limit r count =>
          exact (layer_renews (receiver r rfl) (List.forall_mem_nil _)).adds
      | countRows r => exact (countRows_renews (receiver r rfl)).adds
      | groupBy r keys values =>
          have grouped := grouping_renews (receiver r rfl) arguments
          exact (grouped.after_resolve (receiver r rfl).resolutionSource).adds
      | having g predicates =>
          refine Adds.of_arguments rfl (receiver _ rfl) ?_
            (having_renews (receiver _ rfl) arguments)
          intro none
          rw [having, none]
          rfl
      | createAs t r =>
          obtain ⟨onTable, onSource⟩ := List.forall_mem_cons.mp receivers
          have direct : (call (.createAs t r)).run = (do
              return .statement (.create ⟨t, ← statementSource r, false, []⟩)) := by
            simp [Build.Request.run, Call.run, createAs]
          rw [direct]
          exact statement_adds (fun _ => rfl) (fun _ => rfl) onTable
            (List.forall_mem_singleton.mp onSource)
      | insertFrom t r =>
          obtain ⟨onTable, onSource⟩ := List.forall_mem_cons.mp receivers
          have direct : (call (.insertFrom t r)).run = (do
              return .statement (.insert ⟨t, .query (← statementSource r), none⟩)) := by
            simp [Build.Request.run, Call.run, insertFrom]
          rw [direct]
          exact statement_adds (fun _ => rfl) (fun _ => rfl) onTable
            (List.forall_mem_singleton.mp onSource)
      | explain r =>
          refine .pure ?_ ?_
          · rintro s ⟨query, listed, held⟩
            cases List.mem_singleton.mp listed
            exact receiver r rfl s held
          · intro _ isRelation
            cases isRelation
  | withSchema t schema =>
      exact Renews.adds (.make (fun _ => rfl) (fun _ => List.forall_mem_nil _)
        fun _ => List.forall_mem_nil _)
  | selectStar source => exact (selectStar_renews receivers).adds
  | columnsOnly columns => exact (columnsOnly_renews arguments).adds
  | grouping r keys values => exact (grouping_renews (receiver r rfl) arguments).adds
  | column r name =>
      intro store
      cases found : r.column store name with
      | error e =>
          have outcome : (Build.Request.column r name).run.outcome store = (.error e, store) := by
            apply ExceptT.outcome_bind_of_error
            rw [column_outcome, found]
            rfl
          rw [outcome]
          refine ⟨.refl store, ?_⟩
          intro _ _ failed
          cases failed
      | ok c =>
          have outcome : (Build.Request.column r name).run.outcome store =
              (.ok (.expr (.column c)), store) := by
            apply ExceptT.outcome_bind_of_ok
            rw [column_outcome, found]
            rfl
          rw [outcome]
          refine ⟨.refl store, ?_⟩
          intro node after same
          cases same
          refine ⟨.inl ((receiver r rfl).column found), ?_⟩
          intro _ isRelation
          cases isRelation

/-! Histories. -/

/-- The store and the nodes, the last first, that requests can lead to. A node may also be put
together from earlier relations without a request, such as an expression by its operators. -/
inductive History : Store → List Node → Prop where
  | start : History {} []
  | this {store nodes} (name : String) :
      History store nodes → History ((Build.this name).outcome store).2 nodes
  | composed {store nodes} (node : Node) :
      History store nodes → node.HoldsOnly (Occurs store nodes) → History store (node :: nodes)
  | made {store nodes node after} (request : Build.Request) : History store nodes →
      request.Over store nodes → request.run.outcome store = (.ok node, after) →
      History after (node :: nodes)
  | failed {store nodes e after} (request : Build.Request) : History store nodes →
      request.Over store nodes → request.run.outcome store = (.error e, after) →
      History after nodes

namespace History

variable {store after : Store} {nodes : List Node}

/-- Every number in use was given out, and to one relation. -/
structure Identified (store : Store) (nodes : List Node) : Prop where
  below : ∀ r, Occurs store nodes r → r.id.number < store.relations
  unique : ∀ r s, Occurs store nodes r → Occurs store nodes s → r.id = s.id → r = s

/-- Nothing new occurs. -/
theorem Identified.of_occurs {nodes' : List Node} (identified : Identified store nodes)
    (relations : store.relations ≤ after.relations)
    (occurs : ∀ r, Occurs after nodes' r → Occurs store nodes r) : Identified after nodes' := by
  constructor
  · intro r occurring
    exact Nat.lt_of_lt_of_le (identified.below r (occurs r occurring)) relations
  · intro r s first second
    exact identified.unique r s (occurs r first) (occurs s second)

/-- One new relation occurs. -/
theorem Identified.of_new {nodes' : List Node} {new : Relation}
    (identified : Identified store nodes) (isNew : new.New (Occurs store nodes) store after)
    (occurs : ∀ r, Occurs after nodes' r → r = new ∨ Occurs store nodes r) :
    Identified after nodes' := by
  have other : ∀ r, Occurs store nodes r → r.id ≠ new.id := by
    intro r old same
    have below := identified.below r old
    rw [same] at below
    exact absurd isNew.least (Nat.not_le_of_lt below)
  constructor
  · intro r occurring
    rcases occurs r occurring with rfl | old
    · exact isNew.below
    · exact Nat.lt_trans (Nat.lt_of_lt_of_le (identified.below r old) isNew.least) isNew.below
  · intro r s first second same
    rcases occurs r first with rfl | oldFirst
    · rcases occurs s second with rfl | oldSecond
      · rfl
      · exact absurd same.symm (other s oldSecond)
    · rcases occurs s second with rfl | oldSecond
      · exact absurd same (other r oldFirst)
      · exact identified.unique r s oldFirst oldSecond same

theorem occurs_of_advance (advance : store.Advance (Occurs store nodes) after) {r : Relation}
    (occurs : Occurs after nodes r) : Occurs store nodes r := by
  rcases occurs with inNode | ⟨binding, listed, held⟩
  · exact .inl inNode
  · rcases advance.bindings binding listed with old | only
    · exact .inr ⟨binding, old, held⟩
    · exact only r held

theorem occurs_cons {node : Node} {r : Relation} :
    Occurs store (node :: nodes) r ↔ node.Holds r ∨ Occurs store nodes r := by
  simp only [Occurs, List.mem_cons, exists_eq_or_imp, or_assoc]

theorem Identified.added {node : Node} {back : Option Relation}
    (identified : Identified store nodes) (advance : store.Advance (Occurs store nodes) after)
    (added : node.Added (Occurs store nodes) store after back) :
    Identified after (node :: nodes) := by
  rcases added.parts with only | ⟨new, isNew, only⟩
  · apply identified.of_occurs advance.relations
    intro r occurs
    rcases occurs_cons.mp occurs with held | earlier
    · exact only r held
    · exact occurs_of_advance advance earlier
  · apply identified.of_new isNew
    intro r occurs
    rcases occurs_cons.mp occurs with held | earlier
    · exact only r held
    · exact .inr (occurs_of_advance advance earlier)

theorem run_adds {request : Build.Request} (among : request.Over store nodes) :
    Build.Adds (Occurs store nodes) request.idle request.run :=
  Build.Request.run_adds (fun r listed => (among.receivers r listed).holdsOnly) among.arguments

theorem identified (history : History store nodes) : Identified store nodes := by
  induction history with
  | start =>
      have nothing : ∀ r, ¬ Occurs {} [] r := by
        rintro r (⟨node, listed, _⟩ | ⟨binding, listed, _⟩)
        · cases listed
        · cases listed
      exact ⟨fun r occurs => absurd occurs (nothing r), fun r s occurs => absurd occurs (nothing r)⟩
  | this name _ ih => exact ih.of_occurs (Nat.le_refl _) fun _ occurs => occurs
  | composed node _ only ih =>
      apply ih.of_occurs (Nat.le_refl _)
      intro r occurs
      rcases occurs_cons.mp occurs with held | earlier
      · exact only r held
      · exact earlier
  | @made store nodes node after request _ among outcome ih =>
      obtain ⟨advance, added⟩ := run_adds among store
      rw [outcome] at advance
      exact ih.added advance (added node after outcome)
  | @failed store nodes e after request _ among outcome ih =>
      obtain ⟨advance, _⟩ := run_adds among store
      rw [outcome] at advance
      exact ih.of_occurs advance.relations fun r => occurs_of_advance advance

/-- In a history, relations with the same identity are one relation, wherever they occur: among the
nodes, under them, as owners of columns and behind placeholders. A request that returns a relation
returns its receiver, where all its arguments are skipped, or one whose identity no relation has
before it. -/
theorem identities_unique (history : History store nodes) :
    (∀ r s, Occurs store nodes r → Occurs store nodes s → r.id = s.id → r = s) ∧
    ∀ request : Build.Request, request.Over store nodes → ∀ r after,
      request.run.outcome store = (.ok (.relation r), after) →
      request.idle = some r ∨
        (request.idle = none ∧ ∀ s, Occurs store nodes s → s.id ≠ r.id) := by
  have identified := history.identified
  refine ⟨identified.unique, ?_⟩
  intro request among r after outcome
  have added := (run_adds among store).2 _ after outcome
  rcases added.relation r rfl with back | ⟨none, new⟩
  · exact .inl back
  · right
    refine ⟨none, ?_⟩
    intro s occurs same
    have below := identified.below s occurs
    rw [same] at below
    exact absurd new.least (Nat.not_le_of_lt below)

end History

namespace LargeOrders

theorem holds_rows {r : Relation} (held : isLarge.Holds r) : rows.Holds r := by
  have inAmount : ¬ amount.Holds r := by
    intro held
    cases held with
    | child listed _ => cases listed
  unfold isLarge at held
  cases held with
  | child listed held =>
      simp only [Expr.children, List.mem_cons, List.not_mem_nil, or_false] at listed
      rcases listed with rfl | rfl
      · cases held with
        | child listed held =>
            simp only [Expr.children, List.mem_cons, List.not_mem_nil, or_false] at listed
            rcases listed with rfl | rfl
            · exact absurd held inAmount
            · cases held with
              | subquery inner => exact inner
              | child listed _ => cases listed
      · cases held with
        | child listed held =>
            simp only [Expr.children, List.mem_cons, List.not_mem_nil, or_false] at listed
            rcases listed with rfl | rfl
            · exact absurd held inAmount
            · cases held with
              | child listed _ => cases listed

theorem occurs_of_mem {store : Store} {nodes : List Node} {r : Relation}
    (listed : .relation r ∈ nodes) : Occurs store nodes r :=
  .inl ⟨.relation r, listed, .self r⟩

theorem history : History store nodes := by
  have table : History { relations := 1 } [.relation (.table orders)] :=
    .made (.call (.table orders.path none)) .start
      ⟨List.forall_mem_nil _, List.forall_mem_nil _⟩ rfl
  have counted : History { relations := 2 } [.relation rows, .relation (.table orders)] :=
    .made (.call (.countRows (.table orders))) table
      ⟨List.forall_mem_singleton.mpr (occurs_of_mem (by simp)), List.forall_mem_nil _⟩ rfl
  have filtered : History store [.relation large, .relation rows, .relation (.table orders)] := by
    refine .made (.call (.filter (.table orders) [some isLarge])) (.this "amount" counted)
      ⟨List.forall_mem_singleton.mpr (occurs_of_mem (by simp)), ?_⟩ rfl
    intro e given r held
    cases List.mem_singleton.mp given
    exact (occurs_of_mem (by simp)).holdsOnly r (holds_rows held)
  exact .made (.call (.explain large)) filtered
    ⟨List.forall_mem_singleton.mpr (occurs_of_mem (by simp)), List.forall_mem_nil _⟩ rfl

end LargeOrders

open LargeOrders in
theorem identities_unique_of_largeOrders :
    History store nodes ∧
    (∀ r, Occurs store nodes r → r.id = ⟨0⟩ → r = .table orders) ∧
    (∃ after, (Build.limit large 5).outcome store = (.ok (.select
      { id := ⟨3⟩, table := some (.table orders), filters := [isLarge], limit := some 5 }),
      after)) ∧
    ∀ s, Occurs store nodes s → s.id ≠ ⟨3⟩ := by
  obtain ⟨unique, fresh⟩ := history.identities_unique
  have tables : Occurs store nodes (.table orders) := occurs_of_mem (by simp [nodes])
  have among : (Build.Request.call (.limit large 5)).Over store nodes :=
    ⟨List.forall_mem_singleton.mpr (occurs_of_mem (by simp [nodes])), List.forall_mem_nil _⟩
  refine ⟨history, fun r occurs same => unique r _ occurs tables same, ⟨_, rfl⟩, ?_⟩
  rcases fresh _ among _ _ rfl with back | ⟨_, other⟩
  · cases back
  · exact other

end SqlQuery
