import SqlQuery.Dialect.DuckDB
import SqlQuery.Proofs.Builder.Resolution
import SqlQuery.Proofs.Render.Resolved

/-!
Constructions: calls that put relations and statements together, one after another, each over
relations of earlier calls. Main statement: no node of a construction has an unbound placeholder,
so its text never fails for one.
-/

namespace SqlQuery

inductive Call where
  | table (path : Path) (schema : Option Schema)
  | tableParam (name : String)
  | cte (r : Relation) (name : Option String) (params : Option (List String))
  | aliased (r : Relation) (name : String)
  | join (kind : JoinKind) (sources : List Relation)
  | on (j : Join) (predicates : Arguments)
  | selectFromJoin (j : Join) (columns : Arguments)
  | selectWith (distinct : Option Bool) (r : Relation) (columns : Arguments)
  | filter (r : Relation) (predicates : Arguments)
  | orderBy (r : Relation) (exprs : Arguments)
  | limit (r : Relation) (count : UInt64)
  | countRows (r : Relation)
  | groupBy (r : Relation) (keys values : Arguments)
  | having (g : Grouping) (predicates : Arguments)
  | setOperation (operator : SetOperator) (left right : Relation)
  | createAs (t : Table) (r : Relation)
  | insertFrom (t : Table) (r : Relation)
  | explain (r : Relation)

namespace Call

def run : Call → Build Node
  | table path schema => return .relation (.table (← Build.table path schema))
  | tableParam name => return .relation (.param (← Build.tableParam name))
  | cte r name params => return .relation (.cte (← Build.cte r name params))
  | aliased r name => return .relation (.aliased (← Build.aliased r name))
  | join kind sources => return .relation (.join (← Build.join kind sources))
  | on j predicates => return .relation (.join (← Build.on j predicates))
  | selectFromJoin j columns => return .relation (← Build.selectFromJoin j columns)
  | selectWith distinct r columns => return .relation (← Build.selectWith distinct r columns)
  | filter r predicates => return .relation (← Build.filter r predicates)
  | orderBy r exprs => return .relation (← Build.orderBy r exprs)
  | limit r count => return .relation (← Build.limit r count)
  | countRows r => return .relation (.select (← Build.countRows r))
  | groupBy r keys values => return .relation (.grouping (← Build.groupBy r keys values))
  | having g predicates => return .relation (.grouping (← Build.having g predicates))
  | setOperation operator left right =>
      return .relation (.setOperation (← Build.setOperation operator left right))
  | createAs t r => return .statement (.create (← Build.createAs t r))
  | insertFrom t r => return .statement (.insert (← Build.insertFrom t r))
  | explain r => return .statement (.explain r)

/-- The relations that a call is made on. -/
def receivers : Call → List Relation
  | table _ _ => []
  | tableParam _ => []
  | join _ sources => sources
  | on j _ => [.join j]
  | selectFromJoin j _ => [.join j]
  | having g _ => [.grouping g]
  | setOperation _ left right => [left, right]
  | cte r _ _ => [r]
  | aliased r _ => [r]
  | selectWith _ r _ => [r]
  | filter r _ => [r]
  | orderBy r _ => [r]
  | limit r _ => [r]
  | countRows r => [r]
  | groupBy r _ _ => [r]
  | createAs _ r => [r]
  | insertFrom _ r => [r]
  | explain r => [r]

/-- The expressions that are given to a call. -/
def arguments : Call → List Expr
  | on _ predicates => predicates.present
  | selectFromJoin _ columns => columns.present
  | selectWith _ _ columns => columns.present
  | filter _ predicates => predicates.present
  | orderBy _ exprs => exprs.present
  | groupBy _ keys values => keys.present ++ values.present
  | having _ predicates => predicates.present
  | _ => []

/-- The call is made on relations among the nodes, and so are the queries in its arguments. -/
structure Over (nodes : List Node) (call : Call) : Prop where
  receivers : ∀ r ∈ call.receivers, .relation r ∈ nodes
  subqueries : ∀ e ∈ call.arguments, ∀ r, .subquery r ∈ e.walk → .relation r ∈ nodes

end Call

/-- The store and the nodes, the last first, that calls can lead to. A call that fails gives no
node, but what it bound before that stays bound. -/
inductive Construction : Store → List Node → Prop where
  | start : Construction {} []
  | this {store nodes} (name : String) :
      Construction store nodes → Construction ((Build.this name).outcome store).2 nodes
  | made {store nodes node after} (call : Call) : Construction store nodes → call.Over nodes →
      call.run.outcome store = (.ok node, after) → Construction after (node :: nodes)
  | failed {store nodes e after} (call : Call) : Construction store nodes → call.Over nodes →
      call.run.outcome store = (.error e, after) → Construction after nodes

namespace Build.Ensures

variable {α : Type} {x : Build α} {store : Store}

theorem node {make : α → Node}
    (holds : Ensures store x fun a after => (make a).Resolved after.Binds) :
    Ensures store (do return make (← x)) fun node after => node.Resolved after.Binds := by
  apply holds.bind
  intro a after _ resolved
  exact .pure resolved

theorem relation {make : α → Relation}
    (holds : Ensures store x fun a after => (make a).Resolved after.Binds) :
    Ensures store (do return Node.relation (make (← x))) fun node after =>
      node.Resolved after.Binds :=
  node holds

end Build.Ensures

theorem Call.run_ensures {store : Store} {call : Call}
    (resolved : ∀ r ∈ call.receivers, r.Resolved store.Binds)
    (embedded : ∀ e ∈ call.arguments, e.Embeds store.Binds) :
    Build.Ensures store call.run fun node after => node.Resolved after.Binds := by
  have receiver : ∀ r, call.receivers = [r] → r.Resolved store.Binds := by
    intro r only
    rw [only] at resolved
    exact List.forall_mem_singleton.mp resolved
  cases call with
  | table path schema => exact (Build.table_ensures path schema).relation
  | tableParam name => exact (Build.tableParam_ensures name).relation
  | cte r name params => exact (Build.cte_ensures (receiver r rfl) name params).relation
  | aliased r name => exact (Build.aliased_ensures (receiver r rfl) name).relation
  | join kind sources => exact (Build.join_ensures kind resolved).relation
  | on j predicates => exact (Build.on_ensures (receiver (.join j) rfl) embedded).relation
  | selectFromJoin j columns =>
      exact (Build.selectFromJoin_ensures (receiver (.join j) rfl) embedded).relation
  | selectWith distinct r columns =>
      exact (Build.selectWith_ensures distinct (receiver r rfl) embedded).relation
  | filter r predicates => exact (Build.filter_ensures (receiver r rfl) embedded).relation
  | orderBy r exprs => exact (Build.orderBy_ensures (receiver r rfl) embedded).relation
  | limit r count => exact (Build.limit_ensures (receiver r rfl) count).relation
  | countRows r => exact (Build.countRows_ensures (receiver r rfl)).relation
  | groupBy r keys values => exact (Build.groupBy_ensures (receiver r rfl) embedded).relation
  | having g predicates =>
      exact (Build.having_ensures (receiver (.grouping g) rfl) embedded).relation
  | setOperation operator left right =>
      exact (Build.setOperation_ensures operator resolved).relation
  | createAs t r => exact (Build.createAs_ensures t (receiver r rfl)).node
  | insertFrom t r => exact (Build.insertFrom_ensures t (receiver r rfl)).node
  | explain r => exact .pure (List.forall_mem_singleton.mpr (receiver r rfl))

namespace Construction

variable {store : Store} {nodes : List Node}

structure Sound (store : Store) (nodes : List Node) : Prop where
  columnar : store.Columnar
  resolved : ∀ node ∈ nodes, node.Resolved store.Binds

theorem Sound.step {after : Store} (sound : Sound store nodes) (step : store.Step after) :
    Sound after nodes :=
  ⟨step.columnar sound.columnar, fun node listed => (sound.resolved node listed).mono step.kept⟩

theorem Sound.run_ensures {call : Call} (sound : Sound store nodes) (ready : call.Over nodes) :
    Build.Ensures store call.run fun node after => node.Resolved after.Binds := by
  apply Call.run_ensures
  · intro r listed
    exact sound.resolved (.relation r) (ready.receivers r listed)
  · intro e listed r within
    exact sound.resolved (.relation r) (ready.subqueries e listed r within)

theorem sound (construction : Construction store nodes) : Sound store nodes := by
  induction construction with
  | start => exact ⟨nofun, nofun⟩
  | this name _ ih => exact ih.step (.of_bindings rfl)
  | made call _ ready outcome ih =>
      obtain ⟨step, made⟩ := ih.run_ensures ready
      rw [outcome] at step
      have kept := ih.step step
      exact ⟨kept.columnar, List.forall_mem_cons.mpr ⟨made _ _ outcome, kept.resolved⟩⟩
  | failed call _ ready outcome ih =>
      obtain ⟨step, _⟩ := ih.run_ensures ready
      rw [outcome] at step
      exact ih.step step

/-- A node of a construction has no unbound placeholder, and its text does not fail for one with any
settings whose parameters have none. -/
theorem compile_ne_unresolved (construction : Construction store nodes) {node : Node}
    (built : node ∈ nodes) :
    node.Resolved store.Binds ∧ ∀ settings : Settings, settings.Resolved store →
      ∀ name, node.compile store settings ≠ .error (.unresolved name) := by
  have resolved := construction.sound.resolved node built
  refine ⟨resolved, ?_⟩
  intro settings params name
  have bindings := construction.sound.columnar.resolved
  exact Node.compileWithin_ne_unresolved bindings params resolved _ name

end Construction

namespace LargeOrders

def orders : Table := { id := ⟨0⟩, path := .orders, schema := none }

def rows : Relation := .select
  { id := ⟨1⟩, table := some (.table orders), columns := some [.count none false] }

def amount : Expr := .placeholder ⟨0⟩ "amount"

def isLarge : Expr :=
  .binary .and [.binary .gt [amount, .subquery rows], .binary .le [amount, .param "most"]]

def large : Relation := .select { id := ⟨2⟩, table := some (.table orders), filters := [isLarge] }

def store : Store where
  relations := 3
  placeholders := 1
  bindings := [(⟨0⟩, .column ⟨.table orders, "amount"⟩)]

def nodes : List Node :=
  [.statement (.explain large), .relation large, .relation rows, .relation (.table orders)]

def settings : Settings where
  dialect := Dialect.duckDB
  params := some [("most", .expr (.value (.int 900)))]

theorem construction : Construction store nodes := by
  have table : Construction { relations := 1 } [.relation (.table orders)] :=
    .made (.table orders.path none) .start ⟨nofun, nofun⟩ rfl
  have counted : Construction { relations := 2 } [.relation rows, .relation (.table orders)] :=
    .made (.countRows (.table orders)) table ⟨by simp [Call.receivers], nofun⟩ rfl
  have filtered : Construction store
      [.relation large, .relation rows, .relation (.table orders)] := by
    refine .made (.filter (.table orders) [some isLarge]) (.this "amount" counted) ⟨?_, ?_⟩ rfl
    · simp [Call.receivers]
    · intro e listed r within
      cases List.mem_singleton.mp listed
      have walk : isLarge.walk = [isLarge, .binary .gt [amount, .subquery rows], amount,
        .subquery rows, .binary .le [amount, .param "most"], amount, .param "most"] := rfl
      rw [walk] at within
      simp [isLarge, amount] at within
      simp [within]
  exact .made (.explain large) filtered ⟨by simp [Call.receivers], nofun⟩ rfl

theorem settings_resolved : settings.Resolved store := by
  intro name node given
  by_cases same : name = "most"
  · subst same
    cases given
    exact .mk _ nofun nofun nofun
  · have differ : (name == "most") = false := beq_false_of_ne same
    simp [Settings.param, settings, List.lookup_cons, differ] at given

end LargeOrders

theorem compile_ne_unresolved_of_largeOrders :
    Construction LargeOrders.store LargeOrders.nodes ∧
      LargeOrders.settings.Resolved LargeOrders.store ∧
      (∀ node ∈ LargeOrders.nodes, node.Resolved LargeOrders.store.Binds ∧
        ∀ name, node.compile LargeOrders.store LargeOrders.settings ≠ .error (.unresolved name)) ∧
      (Node.statement (.explain LargeOrders.large)).compile LargeOrders.store
        LargeOrders.settings = .ok ("EXPLAIN SELECT * FROM \"orders\" WHERE ((\"amount\" > " ++
          "(SELECT count(*) FROM \"orders\")) AND (\"amount\" <= 900))") := by
  refine ⟨LargeOrders.construction, LargeOrders.settings_resolved, ?_, rfl⟩
  intro node built
  obtain ⟨resolved, compiled⟩ :=
    Construction.compile_ne_unresolved LargeOrders.construction built
  exact ⟨resolved, compiled LargeOrders.settings LargeOrders.settings_resolved⟩

end SqlQuery
