import SqlQuery.Proofs.Builder.Construction
import SqlQuery.Proofs.Builder.NameResolution

/-!
Calls that fail. A call binds the names in its arguments one after another, and stops at the first
one that it cannot bind. Main statement: the placeholders before that one are bound, all others are
left as they were, and a later call can use those that were left but none of those that were bound.
-/

namespace SqlQuery

/-- A placeholder cannot be bound: its name is not found, or it is bound already. -/
inductive Relation.Refuses (source : Relation) (store : Store) :
    PlaceholderId × String → Error → Prop
  | missing {id : PlaceholderId} {name : String} {e : Error} :
      source.column store name = .error e → Refuses source store (id, name) e
  | bound {id : PlaceholderId} {name : String} {c : Column} {e : Expr} :
      source.column store name = .ok c → store.binding? id = some e →
      Refuses source store (id, name) (.alreadyResolved name)

namespace Relation.Resolves

variable {source : Relation} {store : Store} {done : List (PlaceholderId × String)}
  {new : List (PlaceholderId × Expr)}

theorem column_eq (resolves : source.Resolves store done new) (name : String) :
    source.column { store with bindings := store.bindings ++ new } name =
      source.column store name := by
  cases resolves.columns with
  | nil => rw [List.append_nil]
  | cons gives _ =>
      obtain ⟨_, found, _⟩ := gives
      exact column_stable (Store.within_of_append rfl) found name

theorem refuses_before (resolves : source.Resolves store done new)
    {target : PlaceholderId × String} (other : target.1 ∉ done.map Prod.fst) {e : Error}
    (refused : source.Refuses { store with bindings := store.bindings ++ new } target e) :
    source.Refuses store target e := by
  cases refused with
  | missing missing =>
      rw [resolves.column_eq] at missing
      exact .missing missing
  | bound found binding =>
      rw [resolves.column_eq] at found
      rw [resolves.binding?_of_not_mem rfl other] at binding
      exact .bound found binding

end Relation.Resolves

namespace Build

variable {source : Relation} {store after : Store} {exprs : List Expr} {e : Error}

theorem bind_column_eq_error {id : PlaceholderId} {name : String} :
    (do bind id name (← column source name) : Build Unit).outcome store = (.error e, after) ↔
      source.Refuses store (id, name) e ∧ after = store := by
  cases looked : source.column store name with
  | error missing =>
      have outcome : (do bind id name (← column source name) : Build Unit).outcome store =
          (.error missing, store) := by
        apply ExceptT.outcome_bind_of_error
        rw [column_outcome, looked]
        rfl
      rw [outcome]
      constructor
      · intro failed
        cases failed
        exact ⟨.missing looked, rfl⟩
      · rintro ⟨refused, rfl⟩
        cases refused with
        | missing found =>
            cases looked.symm.trans found
            rfl
        | bound found _ => cases looked.symm.trans found
  | ok c =>
      have outcome : (do bind id name (← column source name) : Build Unit).outcome store =
          (bind id name (.column c)).outcome store := by
        apply ExceptT.outcome_bind_of_ok
        rw [column_outcome, looked]
        rfl
      rw [outcome, bind_outcome]
      constructor
      · intro failed
        cases binding : store.binding? id with
        | none =>
            rw [binding] at failed
            cases failed
        | some bound =>
            rw [binding] at failed
            cases failed
            exact ⟨.bound looked binding, rfl⟩
      · rintro ⟨refused, rfl⟩
        cases refused with
        | missing found => cases looked.symm.trans found
        | bound _ binding => rw [binding]

/-- Expressions are not resolved if and only if one of their placeholders cannot be bound after
those before it are. -/
theorem resolve_eq_error :
    (resolve source exprs).outcome store = (.error e, after) ↔
      ∃ done target rest new, Expr.placeholders exprs = done ++ target :: rest ∧
        source.Resolves store done new ∧
        after = { store with bindings := store.bindings ++ new } ∧
        source.Refuses after target e := by
  rw [resolve, ExceptT.outcome_forM_eq_error]
  constructor
  · rintro ⟨done, target, rest, middle, split, passed, failed⟩
    obtain ⟨new, resolves, reached⟩ := bindAll_eq_ok.mp passed
    obtain ⟨refused, rfl⟩ := bind_column_eq_error.mp failed
    exact ⟨done, target, rest, new, split, resolves, reached, refused⟩
  · rintro ⟨done, target, rest, new, split, resolves, reached, refused⟩
    exact ⟨done, target, rest, after, split, bindAll_eq_ok.mpr ⟨new, resolves, reached⟩,
      bind_column_eq_error.mpr ⟨refused, rfl⟩⟩

/-! Steps that do not fail. -/

variable {α β : Type}

def Succeeds (x : Build α) (store : Store) : Prop :=
  ∃ a after, x.outcome store = (.ok a, after)

theorem succeeds_iff {x : Build α} :
    x.Succeeds store ↔ ∀ e after, x.outcome store ≠ (.error e, after) := by
  rw [Succeeds]
  rcases outcome : x.outcome store with ⟨e | a, after⟩
  · simp
  · simp

theorem bind_eq_error_iff {x : Build α} {f : α → Build β}
    (total : ∀ a middle, (f a).Succeeds middle) :
    (x >>= f).outcome store = (.error e, after) ↔ x.outcome store = (.error e, after) := by
  rw [ExceptT.outcome_bind_eq_error]
  constructor
  · rintro (failed | ⟨a, middle, _, failed⟩)
    · exact failed
    · exact absurd failed (succeeds_iff.mp (total a middle) e after)
  · exact .inl

theorem error_iff_of_skipped {x : Build α} (idle : x.Succeeds store) (skipped : exprs = []) :
    x.outcome store = (.error e, after) ↔
      (resolve source exprs).outcome store = (.error e, after) := by
  subst skipped
  have nothing : (resolve source []).Succeeds store := ⟨(), store, rfl⟩
  exact iff_of_false (succeeds_iff.mp idle e after) (succeeds_iff.mp nothing e after)

/-! Once the names are bound, only a grouping without keys and values fails. -/

theorem selectWith_eq_error {distinct : Option Bool} {r : Relation} {columns : Arguments} :
    (selectWith distinct r columns).outcome store = (.error e, after) ↔
      (resolve r.resolutionSource columns.present).outcome store = (.error e, after) :=
  bind_eq_error_iff fun _ _ => ⟨_, _, rfl⟩

theorem filter_eq_error {r : Relation} {predicates : Arguments} :
    (filter r predicates).outcome store = (.error e, after) ↔
      (resolve r.resolutionSource predicates.present).outcome store = (.error e, after) := by
  rw [filter]
  split
  · next skipped => exact error_iff_of_skipped ⟨_, _, rfl⟩ skipped
  · exact bind_eq_error_iff fun _ _ => ⟨_, _, rfl⟩

theorem orderBy_eq_error {r : Relation} {exprs : Arguments} :
    (orderBy r exprs).outcome store = (.error e, after) ↔
      (resolve r.resolutionSource exprs.present).outcome store = (.error e, after) := by
  rw [orderBy]
  split
  · next skipped => exact error_iff_of_skipped ⟨_, _, rfl⟩ skipped
  · exact bind_eq_error_iff fun _ _ => ⟨_, _, rfl⟩

theorem on_eq_error {j : Join} {predicates : Arguments} :
    (on j predicates).outcome store = (.error e, after) ↔
      (resolve (.join j) predicates.present).outcome store = (.error e, after) := by
  rw [on]
  split
  · next skipped => exact error_iff_of_skipped ⟨_, _, rfl⟩ skipped
  · exact bind_eq_error_iff fun _ _ => ⟨_, _, rfl⟩

theorem having_eq_error {g : Grouping} {predicates : Arguments} :
    (having g predicates).outcome store = (.error e, after) ↔
      (resolve g.table.resolutionSource predicates.present).outcome store = (.error e, after) := by
  rw [having]
  split
  · next skipped => exact error_iff_of_skipped ⟨_, _, rfl⟩ skipped
  · exact bind_eq_error_iff fun _ _ => ⟨_, _, rfl⟩

theorem selectFromJoin_eq_error {j : Join} {columns : Arguments} :
    (selectFromJoin j columns).outcome store = (.error e, after) ↔
      (resolve (.join j) columns.present).outcome store = (.error e, after) := by
  rw [selectFromJoin]
  split
  · exact selectWith_eq_error
  · exact bind_eq_error_iff fun _ _ => ⟨_, _, rfl⟩

theorem grouping_eq_error {r : Relation} {keys values : List Expr} :
    (grouping r keys values).outcome store = (.error e, after) ↔
      keys ++ values = [] ∧ e = .emptyGrouping ∧ after = store := by
  rw [grouping]
  split
  · next nothing =>
      have empty : keys ++ values = [] := by simpa using nothing
      constructor
      · intro failed
        cases failed
        exact ⟨empty, rfl, rfl⟩
      · rintro ⟨_, rfl, rfl⟩
        rfl
  · next something =>
      have nonempty : keys ++ values ≠ [] := by simpa using something
      exact iff_of_false (succeeds_iff.mp ⟨_, _, rfl⟩ e after) fun nothing => nonempty nothing.1

theorem groupBy_eq_error {r : Relation} {keys values : Arguments} :
    (groupBy r keys values).outcome store = (.error e, after) ↔
      (resolve r.resolutionSource (keys.present ++ values.present)).outcome store =
        (.error e, after) ∨
      (keys.present ++ values.present = [] ∧ e = .emptyGrouping ∧ after = store) := by
  rw [groupBy, ExceptT.outcome_bind_eq_error]
  apply or_congr Iff.rfl
  simp only [grouping_eq_error]
  constructor
  · rintro ⟨_, middle, resolved, nothing, rfl, rfl⟩
    rw [nothing] at resolved
    cases resolved
    exact ⟨nothing, rfl, rfl⟩
  · rintro ⟨nothing, rfl, rfl⟩
    refine ⟨(), after, ?_, nothing, rfl, rfl⟩
    rw [nothing]
    rfl

end Build

namespace Call

/-- The relation to whose columns a call binds the names in its arguments. -/
def scope : Call → Option Relation
  | on j _ => some (.join j)
  | selectFromJoin j _ => some (.join j)
  | selectWith _ r _ => some r.resolutionSource
  | filter r _ => some r.resolutionSource
  | orderBy r _ => some r.resolutionSource
  | groupBy r _ _ => some r.resolutionSource
  | having g _ => some g.table.resolutionSource
  | _ => none

def GroupsNothing : Call → Prop
  | groupBy _ keys values => keys.present ++ values.present = []
  | _ => False

variable {call : Call} {store after : Store} {e : Error}

theorem exists_scope {id : PlaceholderId} (reached : Expr.Reaches call.arguments id) :
    ∃ source, call.scope = some source := by
  obtain ⟨e, listed, _⟩ := reached
  cases call <;> first | exact ⟨_, rfl⟩ | cases listed

theorem run_eq_error_of_scope {source : Relation} (scope : call.scope = some source) :
    call.run.outcome store = (.error e, after) ↔
      (Build.resolve source call.arguments).outcome store = (.error e, after) ∨
      (call.GroupsNothing ∧ e = .emptyGrouping ∧ after = store) := by
  have node {α : Type} {x : Build α} (make : α → Node) :
      (do return make (← x) : Build Node).outcome store = (.error e, after) ↔
        x.outcome store = (.error e, after) :=
    Build.bind_eq_error_iff fun _ _ => ⟨_, _, rfl⟩
  have alone {P Q : Prop} (same : P ↔ Q) :
      P ↔ Q ∨ (False ∧ e = .emptyGrouping ∧ after = store) := by
    simpa only [false_and, or_false] using same
  cases call <;> cases scope
  case on => exact alone ((node _).trans Build.on_eq_error)
  case selectFromJoin => exact alone ((node _).trans Build.selectFromJoin_eq_error)
  case selectWith => exact alone ((node _).trans Build.selectWith_eq_error)
  case filter => exact alone ((node _).trans Build.filter_eq_error)
  case orderBy => exact alone ((node _).trans Build.orderBy_eq_error)
  case groupBy => exact (node _).trans Build.groupBy_eq_error
  case having => exact alone ((node _).trans Build.having_eq_error)

theorem succeeds_of_no_scope (scope : call.scope = none) (store : Store) :
    call.run.Succeeds store := by
  cases call with
  | createAs t r => cases r <;> exact ⟨_, _, rfl⟩
  | insertFrom t r => cases r <;> exact ⟨_, _, rfl⟩
  | _ => first | exact ⟨_, _, rfl⟩ | cases scope

variable {names : PlaceholderId → String}

theorem run_succeeds_iff (named : Expr.Named names call.arguments) :
    call.run.Succeeds store ↔ ¬ call.GroupsNothing ∧ ∀ source, call.scope = some source →
      ∀ id, Expr.Reaches call.arguments id →
        store.binding? id = none ∧ ∃ c, source.column store (names id) = .ok c := by
  cases scope : call.scope with
  | none =>
      have grouped : ¬ call.GroupsNothing := by
        intro nothing
        cases call <;> first | exact nothing | cases scope
      refine iff_of_true (succeeds_of_no_scope scope store) ⟨grouped, ?_⟩
      intro source same
      cases same
  | some source =>
      have resolved : (Build.resolve source call.arguments).Succeeds store ↔
          ∀ id, Expr.Reaches call.arguments id →
            store.binding? id = none ∧ ∃ c, source.column store (names id) = .ok c := by
        rw [← Build.exists_resolve_iff named]
        constructor
        · intro resolved
          obtain ⟨_, after, outcome⟩ := resolved
          exact ⟨after, outcome⟩
        · intro resolved
          obtain ⟨after, outcome⟩ := resolved
          exact ⟨(), after, outcome⟩
      simp only [Option.some.injEq, forall_eq', ← resolved, Build.succeeds_iff, ne_eq,
        run_eq_error_of_scope scope, not_or]
      constructor
      · intro passes
        exact ⟨fun nothing => (passes .emptyGrouping store).2 ⟨nothing, rfl, rfl⟩,
          fun e after => (passes e after).1⟩
      · intro passes e after
        exact ⟨passes.2 e after, fun nothing => passes.1 nothing.1⟩

/-- Where a call stops, after the placeholders in a list: at one that cannot be bound, or for want
of anything to group by. -/
inductive Stops (store : Store) (e : Error) (call : Call) :
    List (PlaceholderId × String) → Prop
  | refused {source : Relation} {done rest : List (PlaceholderId × String)}
      {target : PlaceholderId × String} : call.scope = some source →
      Expr.placeholders call.arguments = done ++ target :: rest →
      source.Refuses store target e → Stops store e call done
  | nothing : call.GroupsNothing → e = .emptyGrouping → Stops store e call []

theorem exists_stops (named : Expr.Named names call.arguments)
    (failed : call.run.outcome store = (.error e, after)) :
    ∃ source done new, call.scope = some source ∧ call.Stops store e done ∧
      source.Resolves store done new ∧ after.bindings = store.bindings ++ new := by
  cases scope : call.scope with
  | none =>
      have succeeds := succeeds_of_no_scope scope store
      exact absurd failed (Build.succeeds_iff.mp succeeds e after)
  | some source =>
      rcases (run_eq_error_of_scope scope).mp failed with unresolved | ⟨nothing, empty, rfl⟩
      · obtain ⟨done, target, rest, new, split, resolves, rfl, refused⟩ :=
          Build.resolve_eq_error.mp unresolved
        have other : target.1 ∉ done.map Prod.fst := by
          have distinct := named.distinct
          rw [split, List.map_append, List.map_cons, List.nodup_append'] at distinct
          intro again
          exact distinct.2.2 again List.mem_cons_self
        exact ⟨source, done, new, rfl, .refused scope split (resolves.refuses_before other refused),
          resolves, rfl⟩
      · exact ⟨source, [], [], rfl, .nothing nothing empty,
          ⟨.nil, List.nodup_nil, List.forall_mem_nil _⟩, (List.append_nil _).symm⟩

/-- A call that fails has bound the placeholders before the one at which it stops, each to its
column, and has changed no other one. So it changes nothing if and only if there are none before. A
later call fails if it is given a placeholder that was bound; if it is given none, it succeeds if it
would have succeeded before. -/
theorem failure_binds_earlier (named : Expr.Named names call.arguments)
    (failed : call.run.outcome store = (.error e, after)) :
    ∃ done, call.Stops store e done ∧
      (∀ target ∈ done, store.binding? target.1 = none ∧ ∃ source c, call.scope = some source ∧
        source.column store target.2 = .ok c ∧ after.binding? target.1 = some (.column c)) ∧
      (∀ id, id ∉ done.map Prod.fst → after.binding? id = store.binding? id) ∧
      ((∀ id, after.binding? id = store.binding? id) ↔ done = []) ∧
      ∀ later : Call, Expr.Named names later.arguments →
        ((∃ id ∈ done.map Prod.fst, Expr.Reaches later.arguments id) →
          ¬ later.run.Succeeds after) ∧
        ((∀ id ∈ done.map Prod.fst, ¬ Expr.Reaches later.arguments id) →
          later.run.Succeeds store → later.run.Succeeds after) := by
  obtain ⟨source, done, new, scope, stops, resolves, bindings⟩ := exists_stops named failed
  have kept : ∀ id, id ∉ done.map Prod.fst → after.binding? id = store.binding? id :=
    fun id other => resolves.binding?_of_not_mem bindings other
  refine ⟨done, stops, ?_, kept, ?_, ?_⟩
  · intro target listed
    obtain ⟨c, found, bound⟩ := resolves.exists_column bindings listed
    exact ⟨resolves.unbound target listed, source, c, scope, found, bound⟩
  · constructor
    · intro same
      apply List.eq_nil_iff_forall_not_mem.mpr
      intro target listed
      apply resolves.binding?_ne_none bindings listed
      rw [same, resolves.unbound target listed]
    · rintro rfl id
      exact kept id List.not_mem_nil
  · intro later laterNamed
    rw [run_succeeds_iff laterNamed, run_succeeds_iff laterNamed]
    constructor
    · rintro ⟨id, among, reached⟩ ⟨_, ready⟩
      obtain ⟨target, listed, rfl⟩ := List.mem_map.mp among
      obtain ⟨other, itsScope⟩ := exists_scope reached
      exact resolves.binding?_ne_none bindings listed (ready other itsScope target.1 reached).1
    · rintro apart ⟨grouped, ready⟩
      refine ⟨grouped, ?_⟩
      intro other itsScope id reached
      obtain ⟨unbound, c, found⟩ := ready other itsScope id reached
      have left : id ∉ done.map Prod.fst := fun among => apart id among reached
      refine ⟨(kept id left).trans unbound, c, ?_⟩
      rw [Relation.column_stable (Store.within_of_append bindings) found, found]

end Call

/-! A grouping of orders by a name, with another one that was used before. -/

namespace AmountsOfOrders

def used : Expr := .placeholder ⟨1⟩ "id"

def unused : Expr := .placeholder ⟨2⟩ "id"

def before : Store := store.bind ⟨1⟩ (.column ⟨orders, "Id"⟩)

def after : Store := before.bind ⟨0⟩ (.column ⟨orders, "Amount"⟩)

def counted : Call :=
  .groupBy orders [some amount] [some (.count (some amount) false), some used, some unused]

def positive : Call := .filter orders [some (.binary .gt [amount, .value (.int 0)])]

def identified : Call := .filter orders [some (.binary .gt [unused, .value (.int 0)])]

end AmountsOfOrders

open AmountsOfOrders in
theorem failure_binds_earlier_of_counted :
    Expr.Named names counted.arguments ∧
    counted.run.outcome before = (.error (.alreadyResolved "id"), after) ∧
    after.binding? ⟨0⟩ ≠ before.binding? ⟨0⟩ ∧
    after.binding? ⟨1⟩ = before.binding? ⟨1⟩ ∧
    after.binding? ⟨2⟩ = before.binding? ⟨2⟩ ∧
    positive.run.Succeeds before ∧ ¬ positive.run.Succeeds after ∧
    identified.run.Succeeds before ∧ identified.run.Succeeds after := by
  have named : Expr.Named names counted.arguments := by
    have targets : Expr.placeholders counted.arguments =
        [(⟨0⟩, "amount"), (⟨1⟩, "id"), (⟨2⟩, "id")] := rfl
    rw [Expr.named_iff, targets]
    decide
  have inPositive : Expr.placeholders positive.arguments = [(⟨0⟩, "amount")] := rfl
  have inIdentified : Expr.placeholders identified.arguments = [(⟨2⟩, "id")] := rfl
  have failed : counted.run.outcome before = (.error (.alreadyResolved "id"), after) := rfl
  obtain ⟨done, _, bound, kept, _, later⟩ := Call.failure_binds_earlier named failed
  have changed : after.binding? ⟨0⟩ ≠ before.binding? ⟨0⟩ := by
    intro same
    cases same
  have first : ⟨0⟩ ∈ done.map Prod.fst := by
    by_contra other
    exact changed (kept ⟨0⟩ other)
  have notUsed : ⟨1⟩ ∉ done.map Prod.fst := by
    intro among
    obtain ⟨⟨_, _⟩, listed, rfl⟩ := List.mem_map.mp among
    cases (bound _ listed).1
  have notUnused : ⟨2⟩ ∉ done.map Prod.fst := by
    intro among
    obtain ⟨⟨_, _⟩, listed, rfl⟩ := List.mem_map.mp among
    obtain ⟨_, _, _, _, _, now⟩ := bound _ listed
    cases now
  refine ⟨named, failed, changed, kept ⟨1⟩ notUsed, kept ⟨2⟩ notUnused, ⟨_, _, rfl⟩, ?_,
    ⟨_, _, rfl⟩, ?_⟩
  · refine (later positive ?_).1 ⟨⟨0⟩, first, ?_⟩
    · rw [Expr.named_iff, inPositive]
      decide
    · rw [Expr.reaches_iff_mem, inPositive]
      exact .head _
  · refine (later identified ?_).2 ?_ ⟨_, _, rfl⟩
    · rw [Expr.named_iff, inIdentified]
      decide
    · intro id among reached
      rw [Expr.reaches_iff_mem, inIdentified] at reached
      cases List.mem_singleton.mp reached
      exact notUnused among

open AmountsOfOrders in
/-- A call that selects a column and a name that is not found binds the column all the same, and its
placeholder cannot be used again. -/
theorem placeholder_bound_by_failure :
    (Build.select orders [some amount, some (.placeholder ⟨1⟩ "price")]).outcome store =
      (.error (.unknownColumn "orders" "price"),
        store.bind ⟨0⟩ (.column ⟨orders, "Amount"⟩)) ∧
    store.binding? ⟨0⟩ = none ∧
    (store.bind ⟨0⟩ (.column ⟨orders, "Amount"⟩)).binding? ⟨0⟩ =
      some (.column ⟨orders, "Amount"⟩) ∧
    (∃ r after, (Build.select orders [some amount]).outcome store = (.ok r, after)) ∧
    (Build.select orders [some amount]).outcome (store.bind ⟨0⟩ (.column ⟨orders, "Amount"⟩)) =
      (.error (.alreadyResolved "amount"), store.bind ⟨0⟩ (.column ⟨orders, "Amount"⟩)) :=
  ⟨rfl, rfl, rfl, ⟨_, _, rfl⟩, rfl⟩

end SqlQuery
