import SqlQuery.Proofs.Builder.Construction
import SqlQuery.Proofs.Render.SelectLists

/-!
The select lists of relations that calls put together. Main statement: an empty one is that of a
join, whose columns a call has selected without giving any.
-/

namespace SqlQuery

/-! What a call makes its relations of. -/

namespace Build

variable {α β : Type} {x : Build α} {post : α → Prop}

def Gives (x : Build α) (post : α → Prop) : Prop :=
  ∀ store a after, x.outcome store = (.ok a, after) → post a

namespace Gives

theorem pure {a : α} (holds : post a) : Gives (Pure.pure a) post := by
  intro store b after outcome
  cases outcome
  exact holds

theorem bind {f : α → Build β} {final : β → Prop} (first : Gives x post)
    (second : ∀ a, post a → Gives (f a) final) : Gives (x >>= f) final := by
  intro store b after outcome
  obtain ⟨a, middle, started, finished⟩ := ExceptT.outcome_bind_eq_ok.mp outcome
  exact second a (first store a middle started) middle b after finished

theorem throw (e : Error) : Gives (MonadExcept.throw e) post := by
  intro store a after outcome
  cases outcome

theorem skip {f : α → Build β} {final : β → Prop} (second : ∀ a, Gives (f a) final) :
    Gives (x >>= f) final := by
  have first : Gives x fun _ => True := fun _ _ _ _ => trivial
  exact first.bind fun a _ => second a

theorem newRelation {make : RelationId → α} (holds : ∀ id, post (make id)) :
    Gives (do return make (← newRelationId)) post :=
  skip fun id => pure (holds id)

theorem star (source : Option Relation) :
    Gives (selectStar source) fun s => ∃ id, s = { id, table := source } :=
  newRelation fun id => ⟨id, rfl⟩

end Gives

end Build

namespace Relation

def grouping? : Relation → Option Grouping
  | .grouping g => some g
  | _ => none

/-- The parts of a relation are among given relations and expressions or parts of them, and it does
not group by nothing unless one of them does. -/
structure MadeOf (receivers : List Relation) (arguments : List Expr) (r : Relation) : Prop where
  sources : ∀ s ∈ r.sources, s ∈ receivers ∨ ∃ q ∈ receivers, s ∈ q.sources
  exprs : ∀ e ∈ r.exprs, e ∈ arguments ∨ (∃ q ∈ receivers, e ∈ q.exprs) ∨ e = .count none false
  outputs : ∀ g, r.grouping? = some g →
    g.outputs ≠ [] ∨ ∃ q : Grouping, .grouping q ∈ receivers ∧ g.outputs = q.outputs

variable {receivers : List Relation} {arguments : List Expr} {r : Relation}

namespace MadeOf

theorem other (sources : ∀ s ∈ r.sources, s ∈ receivers ∨ ∃ q ∈ receivers, s ∈ q.sources)
    (exprs : ∀ e ∈ r.exprs,
      e ∈ arguments ∨ (∃ q ∈ receivers, e ∈ q.exprs) ∨ e = .count none false)
    (other : r.grouping? = none) : r.MadeOf receivers arguments := by
  refine ⟨sources, exprs, ?_⟩
  intro g same
  rw [other] at same
  cases same

theorem given (sources : ∀ s ∈ r.sources, s ∈ receivers) (exprs : ∀ e ∈ r.exprs, e ∈ arguments)
    (none : r.grouping? = none) : r.MadeOf receivers arguments :=
  other (fun s listed => .inl (sources s listed)) (fun e listed => .inl (exprs e listed)) none

theorem wrap {id : RelationId} {clauses : Clauses} (laid : ∀ e ∈ clauses.exprs, e ∈ arguments) :
    (Relation.select (clauses.wrap id r)).MadeOf [r] arguments := by
  refine given (fun s listed => listed) ?_ rfl
  intro e listed
  apply laid e
  simpa [Relation.exprs, SelectOf.exprs, Clauses.wrap, Clauses.exprs] using listed

theorem layer {clauses : Clauses} (laid : ∀ e ∈ clauses.exprs, e ∈ arguments) (id : RelationId) :
    (r.layer id clauses).MadeOf [r] arguments := by
  cases r with
  | select s =>
      rw [Relation.layer]
      split
      · refine other (fun t listed => .inr ⟨_, List.mem_cons_self, listed⟩) ?_ rfl
        intro e listed
        rcases SelectOf.mem_exprs_of_absorb listed with own | added
        · exact .inr (.inl ⟨_, List.mem_cons_self, own⟩)
        · exact .inl (laid e added)
      · exact wrap laid
  | _ => exact wrap laid

end MadeOf

end Relation

namespace Call

variable {call : Call}

/-- A relation that the call is made on, or that it makes of them and of its arguments. -/
def Yields (call : Call) (r : Relation) : Prop :=
  r ∈ call.receivers ∨ r.MadeOf call.receivers call.arguments

structure YieldsNode (call : Call) (node : Node) : Prop where
  exprs : node.exprs = []
  relations : ∀ r ∈ node.relations, call.Yields r

open Build.Gives

section Cases

variable {α : Type} {x : Build α} {r : Relation}

theorem gives_relation {make : α → Relation} (gives : Build.Gives x fun a => call.Yields (make a)) :
    Build.Gives (do return Node.relation (make (← x))) call.YieldsNode :=
  gives.bind fun _ yields => .pure ⟨rfl, List.forall_mem_singleton.mpr yields⟩

/-- A new relation over those that the call is made on. -/
theorem gives_new {make : RelationId → α} {relation : α → Relation}
    (sources : ∀ id, (relation (make id)).sources = call.receivers)
    (exprs : ∀ id, (relation (make id)).exprs = [])
    (none : ∀ id, (relation (make id)).grouping? = none) :
    Build.Gives (do return make (← Build.newRelationId)) fun a => call.Yields (relation a) := by
  apply newRelation
  intro id
  refine .inr (.given ?_ ?_ (none id))
  · rw [sources]
    exact fun s listed => listed
  · rw [exprs]
    exact List.forall_mem_nil _

theorem gives_layer {clauses : Clauses} (receivers : call.receivers = [r])
    (laid : ∀ e ∈ clauses.exprs, e ∈ call.arguments) :
    Build.Gives (Build.layer r clauses) call.Yields := by
  apply newRelation
  intro id
  rw [Yields, receivers]
  exact .inr (.layer laid id)

theorem gives_selectWith {columns : Arguments} (distinct : Option Bool)
    (receivers : call.receivers = [r]) (arguments : call.arguments = columns.present) :
    Build.Gives (Build.selectWith distinct r columns) call.Yields := by
  refine skip fun _ => gives_layer receivers ?_
  rw [arguments]
  cases columns.present with
  | nil => exact List.forall_mem_nil _
  | cons e rest => simp [Clauses.exprs]

theorem gives_on {j : Join} {predicates : Arguments} :
    Build.Gives (Build.on j predicates) fun k => (on j predicates).Yields (.join k) := by
  rw [Build.on]
  split
  · exact .pure (.inl List.mem_cons_self)
  · refine skip fun _ => newRelation fun id => .inr (.other ?_ ?_ rfl)
    · exact fun s listed => .inr ⟨.join j, List.mem_cons_self, listed⟩
    · intro e listed
      simp only [Relation.exprs, List.mem_append] at listed
      rcases listed with (kept | new) | column
      · exact .inr (.inl ⟨.join j, List.mem_cons_self, List.mem_append_left _ kept⟩)
      · exact .inl new
      · exact .inr (.inl ⟨.join j, List.mem_cons_self, List.mem_append_right _ column⟩)

theorem gives_selectFromJoin {j : Join} {columns : Arguments} :
    Build.Gives (Build.selectFromJoin j columns) (selectFromJoin j columns).Yields := by
  rw [Build.selectFromJoin]
  split
  · exact gives_selectWith none rfl rfl
  · refine skip fun _ => newRelation fun id => .inr (.other ?_ ?_ rfl)
    · exact fun s listed => .inr ⟨.join j, List.mem_cons_self, listed⟩
    · intro e listed
      rcases List.mem_append.mp listed with kept | new
      · exact .inr (.inl ⟨.join j, List.mem_cons_self, List.mem_append_left _ kept⟩)
      · exact .inl new

theorem gives_groupBy {keys values : Arguments} :
    Build.Gives (Build.groupBy r keys values) fun g =>
      (groupBy r keys values).Yields (.grouping g) := by
  refine skip fun _ => ?_
  rw [Build.grouping]
  split
  · exact throw _
  · next some =>
      refine newRelation fun id => .inr ⟨fun s listed => .inl listed, ?_, ?_⟩
      · intro e listed
        exact .inl (by simpa [Relation.exprs, arguments] using listed)
      · rintro g same
        cases same
        left
        intro none
        obtain ⟨noKeys, noValues⟩ : keys.present = [] ∧ values.present = [] :=
          List.append_eq_nil_iff.mp none
        exact some (by rw [noKeys, noValues]; rfl)

theorem gives_having {g : Grouping} {predicates : Arguments} :
    Build.Gives (Build.having g predicates) fun h =>
      (having g predicates).Yields (.grouping h) := by
  rw [Build.having]
  split
  · exact .pure (.inl List.mem_cons_self)
  · refine skip fun _ => newRelation fun id => .inr ⟨fun s listed => ?_, ?_, ?_⟩
    · exact .inr ⟨.grouping g, List.mem_cons_self, listed⟩
    · intro e listed
      rw [Relation.exprs, ← List.append_assoc] at listed
      rcases List.mem_append.mp listed with own | new
      · exact .inr (.inl ⟨.grouping g, List.mem_cons_self, own⟩)
      · exact .inl new
    · intro h same
      cases same
      exact .inr ⟨g, List.mem_cons_self, rfl⟩

theorem gives_countRows : Build.Gives (Build.countRows r) fun s =>
    (countRows r).Yields (.select s) := by
  refine (star (some r)).bind ?_
  rintro _ ⟨id, rfl⟩
  refine .pure (.inr (.other (fun s listed => .inl listed) ?_ rfl))
  exact List.forall_mem_singleton.mpr (.inr (.inr rfl))

theorem gives_statementSource (receivers : call.receivers = [r]) :
    Build.Gives (Build.statementSource r) call.Yields := by
  have itself : call.Yields r := .inl (receivers ▸ List.mem_cons_self)
  cases r with
  | table t =>
      refine (star (some (.table t))).bind ?_
      rintro _ ⟨id, rfl⟩
      refine .pure (.inr ?_)
      rw [receivers]
      exact .given (fun s listed => listed) (List.forall_mem_nil _) rfl
  | _ => exact .pure itself

end Cases

theorem run_gives (call : Call) : Build.Gives call.run call.YieldsNode := by
  cases call with
  | table path schema =>
      exact gives_relation (gives_new (fun _ => rfl) (fun _ => rfl) fun _ => rfl)
  | tableParam name =>
      exact gives_relation (gives_new (fun _ => rfl) (fun _ => rfl) fun _ => rfl)
  | cte r name params =>
      exact gives_relation (gives_new (fun _ => rfl) (fun _ => rfl) fun _ => rfl)
  | aliased r name =>
      exact gives_relation (gives_new (fun _ => rfl) (fun _ => rfl) fun _ => rfl)
  | join kind sources =>
      exact gives_relation (gives_new (fun _ => rfl) (fun _ => rfl) fun _ => rfl)
  | setOperation operator left right =>
      exact gives_relation (gives_new (fun _ => rfl) (fun _ => rfl) fun _ => rfl)
  | on j predicates => exact gives_relation gives_on
  | selectFromJoin j columns => exact gives_relation gives_selectFromJoin
  | selectWith distinct r columns => exact gives_relation (gives_selectWith distinct rfl rfl)
  | filter r predicates =>
      apply gives_relation
      rw [Build.filter]
      split
      · exact .pure (.inl List.mem_cons_self)
      · exact skip fun _ => gives_layer rfl (by simp [Clauses.exprs, arguments])
  | orderBy r exprs =>
      apply gives_relation
      rw [Build.orderBy]
      split
      · exact .pure (.inl List.mem_cons_self)
      · exact skip fun _ => gives_layer rfl (by simp [Clauses.exprs, arguments])
  | limit r count => exact gives_relation (gives_layer rfl (List.forall_mem_nil _))
  | countRows r => exact gives_relation gives_countRows
  | groupBy r keys values => exact gives_relation gives_groupBy
  | having g predicates => exact gives_relation gives_having
  | createAs t r =>
      have made : Build.Gives (Build.createAs t r) fun s =>
          ∀ q ∈ (Statement.create s).sources, (createAs t r).Yields q :=
        (gives_statementSource rfl).bind fun _ yields =>
          .pure (List.forall_mem_singleton.mpr yields)
      exact made.bind fun _ yields => .pure ⟨rfl, yields⟩
  | insertFrom t r =>
      have made : Build.Gives (Build.insertFrom t r) fun s =>
          ∀ q ∈ (Statement.insert s).sources, (insertFrom t r).Yields q :=
        (gives_statementSource rfl).bind fun _ yields =>
          .pure (List.forall_mem_singleton.mpr yields)
      exact made.bind fun _ yields => .pure ⟨rfl, yields⟩
  | explain r => exact .pure ⟨rfl, fun q listed => .inl listed⟩

/-! Joins without columns. -/

def SelectsNothing : Call → Prop
  | selectFromJoin j columns => j.columns = none ∧ columns.present = []
  | _ => False

/-- A join among the nodes that the call gives has no columns only if none were selected, by this
call or for a join that it is made on. -/
def Explains (call : Call) (node : Node) : Prop :=
  ∀ j, node = .relation (.join j) → j.columns = some [] →
    call.SelectsNothing ∨ ∃ k : Join, .join k ∈ call.receivers ∧ k.columns = some []

section Columns

variable {r : Relation}

theorem explains_receiver (given : r ∈ call.receivers) : call.Explains (.relation r) := by
  intro j same empty
  cases same
  exact .inr ⟨j, given, empty⟩

theorem gives_select {x : Build Relation} (selects : Build.Gives x fun q => ∃ s, q = .select s) :
    Build.Gives (do return Node.relation (← x)) call.Explains := by
  refine selects.bind ?_
  rintro _ ⟨s, rfl⟩
  refine .pure ?_
  intro j same
  cases same

theorem layer_gives_select (clauses : Clauses) :
    Build.Gives (Build.layer r clauses) fun q => ∃ s, q = .select s := by
  apply newRelation
  intro id
  cases r <;> exact ⟨_, rfl⟩

theorem selectFromJoin_gives_columns {j : Join} {columns : Arguments}
    (unselected : j.columns = none) :
    Build.Gives (Build.selectFromJoin j columns) fun q =>
      ∃ k : Join, q = .join k ∧ k.columns = some columns.present := by
  simp only [Build.selectFromJoin, unselected]
  exact skip fun _ => newRelation fun id => ⟨_, rfl, rfl⟩

theorem run_explains (call : Call) : Build.Gives call.run call.Explains := by
  cases call with
  | join kind sources =>
      have plain : Build.Gives (Build.join kind sources) fun j => j.columns = none :=
        newRelation fun id => rfl
      refine plain.bind fun j none => .pure ?_
      intro k same empty
      cases same
      rw [none] at empty
      cases empty
  | on j predicates =>
      have kept : Build.Gives (Build.on j predicates) fun k => k.columns = j.columns := by
        rw [Build.on]
        split
        · exact .pure rfl
        · exact skip fun _ => newRelation fun id => rfl
      refine kept.bind fun k same => .pure ?_
      intro l equal empty
      cases equal
      exact .inr ⟨j, List.mem_cons_self, same ▸ empty⟩
  | selectFromJoin j columns =>
      cases unselected : j.columns with
      | some es =>
          apply gives_select
          simp only [Build.selectFromJoin, unselected]
          exact skip fun _ => layer_gives_select _
      | none =>
          refine (selectFromJoin_gives_columns unselected).bind ?_
          rintro _ ⟨k, rfl, chosen⟩
          refine .pure ?_
          intro l same empty
          cases same
          exact .inl ⟨unselected, Option.some.inj (chosen.symm.trans empty)⟩
  | selectWith distinct r columns => exact gives_select (skip fun _ => layer_gives_select _)
  | filter r predicates =>
      rw [run, Build.filter]
      split
      · exact .pure (explains_receiver List.mem_cons_self)
      · exact gives_select (skip fun _ => layer_gives_select _)
  | orderBy r exprs =>
      rw [run, Build.orderBy]
      split
      · exact .pure (explains_receiver List.mem_cons_self)
      · exact gives_select (skip fun _ => layer_gives_select _)
  | limit r count => exact gives_select (layer_gives_select _)
  | explain r =>
      refine .pure ?_
      intro j same
      cases same
  | _ =>
      refine skip fun _ => .pure ?_
      intro j same
      cases same

theorem run_of_selectsNothing (nothing : call.SelectsNothing) :
    Build.Gives call.run fun node =>
      ∃ j : Join, node = .relation (.join j) ∧ j.columns = some [] := by
  cases call with
  | selectFromJoin j columns =>
      obtain ⟨unselected, nothing⟩ := nothing
      refine (selectFromJoin_gives_columns unselected).bind ?_
      rintro _ ⟨k, rfl, chosen⟩
      exact .pure ⟨k, rfl, nothing ▸ chosen⟩
  | _ => cases nothing

end Columns

end Call

/-! Constructions. -/

/-- The relation is no grouping with neither keys nor values. -/
def Relation.Grouped (r : Relation) : Prop :=
  ∀ g, r = .grouping g → g.outputs ≠ []

theorem Relation.MadeOf.throughout {receivers : List Relation} {arguments : List Expr}
    {r : Relation} (made : r.MadeOf receivers arguments)
    (grouped : ∀ q ∈ receivers, q.Throughout Grouped)
    (embedded : ∀ e ∈ arguments, e.Throughout Grouped) : r.Throughout Grouped := by
  refine .mk r ?_ ?_ ?_
  · intro g same
    rcases made.outputs g (same ▸ rfl) with some | ⟨q, given, equal⟩
    · exact some
    · rw [equal]
      exact (grouped _ given).here q rfl
  · intro s listed
    rcases made.sources s listed with given | ⟨q, given, inside⟩
    · exact grouped s given
    · exact (grouped q given).sources s inside
  · intro e listed
    rcases made.exprs e listed with argument | ⟨q, given, inside⟩ | rfl
    · exact embedded e argument
    · exact (grouped q given).exprs e inside
    · exact .countAll false

/-- The values of parameters are among the nodes, or they are expressions and the queries in them
are. -/
def Settings.Over (settings : Settings) (nodes : List Node) : Prop :=
  ∀ name node, settings.param name = .ok node → node ∈ nodes ∨
    ∃ e, node = .expr e ∧ ∀ r, .subquery r ∈ e.walk → .relation r ∈ nodes

namespace Construction

variable {store : Store} {nodes : List Node}

theorem grouped (construction : Construction store nodes) :
    ∀ node ∈ nodes, node.Throughout Relation.Grouped := by
  induction construction with
  | start => exact List.forall_mem_nil _
  | this name _ ih => exact ih
  | failed call _ _ _ ih => exact ih
  | @made store nodes node after call _ ready outcome ih =>
      have built : ∀ r, .relation r ∈ nodes → r.Throughout Relation.Grouped :=
        fun r listed => (ih _ listed).relations r List.mem_cons_self
      have yields := call.run_gives store node after outcome
      refine List.forall_mem_cons.mpr ⟨⟨?_, ?_⟩, ih⟩
      · intro r listed
        rcases yields.relations r listed with receiver | made
        · exact built r (ready.receivers r receiver)
        · apply made.throughout
          · exact fun q given => built q (ready.receivers q given)
          · exact fun e argument =>
              .of_walk fun r within => built r (ready.subqueries e argument r within)
      · rw [yields.exprs]
        exact List.forall_mem_nil _

theorem behind_grouped (construction : Construction store nodes) {settings : Settings}
    (params : settings.Over nodes) : settings.Throughout Relation.Grouped store where
  bindings id e bound := by
    obtain ⟨c, rfl⟩ := construction.sound.columnar id e bound
    exact .column c
  params name node given := by
    rcases params name node given with listed | ⟨e, rfl, embedded⟩
    · exact construction.grouped node listed
    · apply Expr.Throughout.node
      apply Expr.Throughout.of_walk
      exact fun r within =>
        (construction.grouped _ (embedded r within)).relations r List.mem_cons_self

/-- In the text of a relation that calls have put together, each SELECT has its select list, and an
empty one is that of a join without columns: one whose columns a call has selected without giving
any. Around other relations, all columns are selected. -/
theorem selectItems_empty_iff (construction : Construction store nodes) {r : Relation}
    (built : .relation r ∈ nodes) {settings : Settings} (params : settings.Over nodes)
    {sql : String} (compiled : (Node.relation r).compile store settings = .ok sql) :
    (∀ p ∈ (Node.relation r).passages store settings, ∀ q items, p.node = .relation q →
      q.selectItems? = some items → p.ShowsItems store settings items ∧
        (items = [] ↔ ∃ j : Join, q = .join j ∧ j.columns = some [])) ∧
      (∀ (call : Call) before after node, call.run.outcome before = (.ok node, after) →
        call.Explains node ∧
          (call.SelectsNothing → ∃ j : Join, node = .relation (.join j) ∧ j.columns = some [])) ∧
      ∀ links ctx (q : Relation) draft text final, q.isQuery = false →
        (Context.query ctx q fun ctx => q.render links ctx).outcome draft = (.ok text, final) →
          ∃ sql middle, Selects links [.all] sql ∧
            (ctx.enclose sql).outcome middle = (.ok text, final) := by
  refine ⟨?_, ?_, fun links ctx q draft text final name => Context.query_selects name⟩
  · intro p passed q items isRelation listed
    obtain ⟨body, draft, rendered, rfl⟩ := Node.compileWithin_eq_ok.mp compiled
    obtain ⟨root, isRoot, inside⟩ := List.mem_flatMap.mp passed
    have written := Passage.visited_written ((Node.roots_written rendered).1 root isRoot) p inside
    refine ⟨Passage.showsItems isRelation listed written, ?_, ?_⟩
    · rintro rfl
      rcases Relation.selectItems?_eq_nil listed with join | ⟨g, rfl, none⟩
      · exact join
      · have holds := Node.passages_throughout (construction.behind_grouped params)
          (construction.grouped _ built) passed
        rw [isRelation] at holds
        exact absurd none ((holds.relations _ List.mem_cons_self).here g rfl)
    · rintro ⟨j, rfl, empty⟩
      rw [Relation.selectItems?, empty] at listed
      exact (Option.some.inj listed).symm
  · intro call before after node ran
    exact ⟨call.run_explains before node after ran,
      fun nothing => Call.run_of_selectsNothing nothing before node after ran⟩

end Construction

/-! Orders with refunds, and a selection that skips its only column. -/

namespace SkippedColumn

def orders : Relation := .table ⟨⟨0⟩, .orders, none⟩

def refunds : Relation := .table ⟨⟨1⟩, .refunds, none⟩

def pairs : Join := ⟨⟨2⟩, [orders, refunds], .inner, [], none⟩

def number : Expr := .column ⟨orders, "id"⟩

def nodes : List Node := [.relation (.join pairs), .relation refunds, .relation orders]

theorem joined : Construction { relations := 3 } nodes := by
  have first : Construction { relations := 1 } [.relation orders] :=
    .made (.table .orders none) .start ⟨nofun, nofun⟩ rfl
  have second : Construction { relations := 2 } [.relation refunds, .relation orders] :=
    .made (.table .refunds none) first ⟨nofun, nofun⟩ rfl
  exact .made (.join .inner [orders, refunds]) second ⟨by simp [Call.receivers], nofun⟩ rfl

/-- The join with the given columns. -/
def selected (columns : List Expr) : Join :=
  { pairs with id := ⟨3⟩, columns := some columns }

def store : Store := { relations := 4 }

def settings : Settings := { dialect := .duckDB }

def passage (columns : List Expr) : Passage where
  depth := 0
  ctx := settings.context
  node := .relation (.join (selected columns))
  draft := {}

theorem passage_mem (columns : List Expr) :
    passage columns ∈ (Node.relation (.join (selected columns))).passages store settings := by
  refine List.mem_flatMap.mpr ⟨passage columns, List.mem_singleton_self _, ?_⟩
  rw [Passage.visited_eq]
  exact List.mem_append_right _ (List.mem_singleton_self (passage columns))

theorem settings_over (nodes : List Node) : settings.Over nodes := by
  intro name node given
  cases given

end SkippedColumn

open SkippedColumn in
theorem selectItems_of_number :
    Construction store (.relation (.join (selected [number])) :: nodes) ∧
      settings.Over (.relation (.join (selected [number])) :: nodes) ∧
      (Node.relation (.join (selected [number]))).compile store settings =
        .ok "SELECT \"tmp1\".\"id\" FROM \"orders\" \"tmp1\" JOIN \"refunds\" \"tmp2\"" ∧
      (passage [number]).ShowsItems store settings [.expr number] := by
  have made : Construction store (.relation (.join (selected [number])) :: nodes) := by
    refine .made (.selectFromJoin pairs [some number]) joined ⟨?_, ?_⟩ rfl
    · simp [Call.receivers, nodes]
    · intro e listed r within
      cases List.mem_singleton.mp listed
      cases List.mem_singleton.mp within
  have shown := (made.selectItems_empty_iff List.mem_cons_self (settings_over _) rfl).1
  exact ⟨made, settings_over _, rfl, (shown _ (passage_mem [number]) _ _ rfl rfl).1⟩

open SkippedColumn in
/-- The selection of nothing leaves nothing between SELECT and FROM. -/
theorem selectItems_empty_of_skipped :
    Construction store (.relation (.join (selected [])) :: nodes) ∧
      (Call.selectFromJoin pairs [none]).SelectsNothing ∧
      passage [] ∈ (Node.relation (.join (selected []))).passages store settings ∧
      (Relation.join (selected [])).selectItems? = some [] ∧
      (Node.relation (.join (selected []))).compile store settings =
        .ok "SELECT  FROM \"orders\" \"tmp1\" JOIN \"refunds\" \"tmp2\"" := by
  have made : Construction store (.relation (.join (selected [])) :: nodes) :=
    .made (.selectFromJoin pairs [none]) joined ⟨by simp [Call.receivers, nodes], nofun⟩ rfl
  exact ⟨made, ⟨rfl, rfl⟩, passage_mem [], rfl, rfl⟩

end SqlQuery
