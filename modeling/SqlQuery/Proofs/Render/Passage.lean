import SqlQuery.Proofs.Outcome
import SqlQuery.Proofs.Query.Size
import SqlQuery.Proofs.Render.Equations
import SqlQuery.Render.Compile

/-!
The course of writing. A node is written through its parts, one after the other, each at its place
and on the draft that the one before it leaves; then the node adds what is its own. What stands
behind a placeholder or a parameter is a part of it as well.

A passage is a node as it is written: at its place and on its draft. The passages of a query make a
tree, and what holds for a whole query follows by induction over it.
-/

namespace SqlQuery

/-- A node at its place in a query, and how many links may still be followed from there. -/
structure Place where
  depth : Nat
  ctx : Context
  node : Node

/-- A node as it is written: at its place and on the draft of what was written before. -/
structure Passage extends Place where
  draft : Draft

/-! Places of the parts of a node. -/

/-- The context of a relation where a query must stand. -/
def Context.querying (ctx : Context) (r : Relation) : Context :=
  if r.isQuery then ctx else ctx.placed true ctx.inJoin

/-- Makes a query of the text of a relation where a query must stand. -/
def Context.queried (ctx : Context) (r : Relation) (text : String) : Rendering String :=
  if r.isQuery then return text else ctx.enclose ("SELECT * FROM " ++ text)

theorem Context.query_eq (ctx : Context) (r : Relation) (render : Context → Rendering String) :
    ctx.query r render = (do
      let text ← render (ctx.querying r)
      ctx.queried r text) := by
  cases query : r.isQuery with
  | true => simp [Context.query_omitted, Context.querying, Context.queried, query]
  | false => simp [Context.query_omitted, Context.querying, Context.queried, query]

/-- The SELECT that a grouping takes into itself. -/
def GroupingOf.absorbed? (g : Grouping) : Option Select :=
  match g.table with
  | .select s => if s.isPlain then some s else none
  | _ => none

theorem GroupingOf.eq_of_absorbed {g : Grouping} {s : Select} (absorbed : g.absorbed? = some s) :
    g.table = .select s ∧ s.isPlain = true := by
  unfold GroupingOf.absorbed? at absorbed
  split at absorbed
  · rename_i s' selected
    split at absorbed
    · cases absorbed
      exact ⟨selected, ‹_›⟩
    · cases absorbed
  · cases absorbed

theorem GroupingOf.not_plain_of_absorbed {g : Grouping} (absorbed : g.absorbed? = none) (s : Select)
    (selected : g.table = .select s) : s.isPlain = false := by
  simp only [GroupingOf.absorbed?, selected] at absorbed
  cases plain : s.isPlain with
  | false => rfl
  | true => simp [plain] at absorbed

namespace Place

variable (depth : Nat) (ctx : Context)

def exprs (es : List Expr) : List Place :=
  es.map fun e => ⟨depth, ctx, .expr e⟩

def relations (rs : List Relation) : List Place :=
  rs.map fun r => ⟨depth, ctx, .relation r⟩

@[simp] theorem exprs_append (first second : List Expr) :
    exprs depth ctx (first ++ second) = exprs depth ctx first ++ exprs depth ctx second :=
  List.map_append

def query (r : Relation) : Place :=
  ⟨depth, ctx.querying r, .relation r⟩

def linked (target : Except Error Node) : List Place :=
  match depth, target with
  | depth + 1, .ok node => [⟨depth, ctx, node⟩]
  | _, _ => []

end Place

section Places

variable (store : Store) (settings : Settings) (depth : Nat) (ctx : Context)

def Expr.places : Expr → List Place
  | .placeholder id name => Place.linked depth ctx ((store.resolve id name).map .expr)
  | .param name => Place.linked depth ctx (settings.param name)
  | .subquery r => [.query depth (ctx.placed false false) r]
  | e => Place.exprs depth ctx e.children

def GroupingOf.places (g : Grouping) : List Place :=
  match g.absorbed? with
  | some s =>
      let inner := ctx.placed true ctx.inJoin
      Place.exprs depth inner g.outputs ++ Place.relations depth inner s.table.toList ++
        Place.exprs depth inner (s.filters ++ g.having ++ s.orderBy)
  | none =>
      Place.exprs depth ctx g.outputs ++ [⟨depth, ctx.placed true false, .relation g.table⟩] ++
        Place.exprs depth ctx g.having

/-- The places of the parts of a relation. Inside a join the given aliases are in scope. -/
def Relation.places (aliases : List ScopedAlias) : Relation → List Place
  | .table _ => []
  | .aliased a => [⟨depth, ctx.placed false true, .relation a.source⟩]
  | .join j =>
      let inner := ctx.joined aliases
      Place.relations depth inner j.sources ++ Place.exprs depth inner (j.on ++ j.columns.getD [])
  | .grouping g => g.places depth ctx
  | .setOperation o =>
      let inner := ctx.placed false ctx.inJoin
      [.query depth inner o.left, .query depth inner o.right]
  | .select s =>
      let inner := ctx.placed true ctx.inJoin
      Place.exprs depth inner (s.columns.getD []) ++ Place.relations depth inner s.table.toList ++
        Place.exprs depth inner (s.filters ++ s.groupBy ++ s.having ++ s.orderBy)
  | .cte c => [.query depth ctx.defining c.source]
  | .param p => Place.linked depth ctx (settings.param p.name)

def Statement.places : Statement → List Place
  | .create s => Place.relations depth ctx s.source.toList
  | .insert ⟨_, .query r, _⟩ => [⟨depth, ctx, .relation r⟩]
  | .explain query => [.query depth ctx query]
  | _ => []

end Places

namespace Place

variable (store : Store) (settings : Settings)

def render (p : Place) : Rendering String :=
  p.node.render (settings.links store p.depth) p.ctx

def parts (aliases : List ScopedAlias) (p : Place) : List Place :=
  match p.node with
  | .expr e => e.places store settings p.depth p.ctx
  | .relation r => r.places settings p.depth p.ctx aliases
  | .statement s => s.places p.depth p.ctx

/-- What a node adds to the text made of its parts. -/
def closing (p : Place) (text : String) : Rendering String :=
  match p.node with
  | .relation (.join _) => p.ctx.enclose text
  | .relation (.grouping _) => p.ctx.enclose text
  | .relation (.setOperation _) => p.ctx.enclose text
  | .relation (.select _) => p.ctx.enclose text
  | .relation (.cte c) => do
      let name ← definitionName c.name
      Rendering.define (definitionHead c.params name) text
      return name
  | .statement (.explain query) => do
      return p.ctx.dialect.explain (← p.ctx.queried query text)
  | _ => return text

end Place

/-! Passages. -/

namespace Passage

variable (store : Store) (settings : Settings)

def outcome (p : Passage) : Except Error String × Draft :=
  (p.toPlace.render store settings).outcome p.draft

/-- The passage comes to a text. -/
def Written (p : Passage) : Prop :=
  ∃ text, (p.outcome store settings).1 = .ok text

def after (p : Passage) : Draft :=
  (p.outcome store settings).2

/-- The nodes at some places, written one after the other. -/
def inTurn : List Place → Draft → List Passage
  | [], _ => []
  | place :: rest, draft => ⟨place, draft⟩ :: inTurn rest (after store settings ⟨place, draft⟩)

def afterAll : List Place → Draft → Draft
  | [], draft => draft
  | place :: rest, draft => afterAll rest (after store settings ⟨place, draft⟩)

/-- The aliases that a join gives to its sources before it writes them, and the draft with their
names. -/
def opening (p : Passage) : List ScopedAlias × Draft :=
  match p.node with
  | .relation (.join j) =>
      match (joinAliases j.sources).outcome p.draft with
      | (.ok aliases, draft) => (aliases, draft)
      | (.error _, draft) => ([], draft)
  | _ => ([], p.draft)

def places (p : Passage) : List Place :=
  p.toPlace.parts store settings p.opening.1

def parts (p : Passage) : List Passage :=
  inTurn store settings (p.places store settings) p.opening.2

section Parts

variable {depth : Nat} {ctx : Context} {draft : Draft}

theorem parts_table (t : Table) :
    parts store settings ⟨⟨depth, ctx, .relation (.table t)⟩, draft⟩ = [] := rfl

theorem parts_cte (c : Cte) :
    parts store settings ⟨⟨depth, ctx, .relation (.cte c)⟩, draft⟩ =
      [⟨.query depth ctx.defining c.source, draft⟩] := rfl

theorem parts_setOperation (o : SetOperation) :
    let left : Passage := ⟨.query depth (ctx.placed false ctx.inJoin) o.left, draft⟩
    parts store settings ⟨⟨depth, ctx, .relation (.setOperation o)⟩, draft⟩ =
      [left, ⟨.query depth (ctx.placed false ctx.inJoin) o.right, left.after store settings⟩] :=
  rfl

end Parts

/-- The draft after the parts of a passage. -/
def middle (p : Passage) : Draft :=
  afterAll store settings (p.places store settings) p.opening.2

variable {store settings}

theorem written_iff (p : Passage) :
    p.Written store settings ↔
      ∃ text, p.outcome store settings = (.ok text, p.after store settings) := by
  constructor
  · rintro ⟨text, given⟩
    exact ⟨text, Prod.ext given rfl⟩
  · rintro ⟨text, outcome⟩
    exact ⟨text, by rw [outcome]⟩

theorem inTurn_append (first second : List Place) (draft : Draft) :
    inTurn store settings (first ++ second) draft =
      inTurn store settings first draft ++
        inTurn store settings second (afterAll store settings first draft) := by
  induction first generalizing draft with
  | nil => rfl
  | cons place rest ih => simp only [List.cons_append, inTurn, afterAll, ih]

theorem afterAll_append (first second : List Place) (draft : Draft) :
    afterAll store settings (first ++ second) draft =
      afterAll store settings second (afterAll store settings first draft) := by
  induction first generalizing draft with
  | nil => rfl
  | cons place rest ih => exact ih _

theorem place_mem_of_inTurn {places : List Place} {draft : Draft} {p : Passage}
    (listed : p ∈ inTurn store settings places draft) : p.toPlace ∈ places := by
  induction places generalizing draft with
  | nil => cases listed
  | cons place rest ih =>
      rcases List.mem_cons.mp listed with rfl | later
      · exact List.mem_cons_self
      · exact List.mem_cons_of_mem _ (ih later)

end Passage

/-! Passages and their parts make a tree. -/

/-- The choices of a context that hold for a whole query. -/
def Context.base (ctx : Context) : Dialect × Bool :=
  (ctx.dialect, ctx.autocommit)

@[simp] theorem Context.base_querying (ctx : Context) (r : Relation) :
    (ctx.querying r).base = ctx.base := by
  unfold Context.querying
  split <;> rfl

/-- A place under a node of the given size: fewer links are left there, or the node there is
smaller. -/
structure Place.Under (depth : Nat) (ctx : Context) (size : Nat) (p : Place) : Prop where
  smaller : p.depth < depth ∨ p.depth = depth ∧ sizeOf p.node < 1 + size
  base : p.ctx.base = ctx.base

section Under

variable {store : Store} {settings : Settings} {depth size : Nat} {ctx inner : Context}

namespace Place

theorem exprs_under {es : List Expr} (base : inner.base = ctx.base)
    (smaller : ∀ e ∈ es, sizeOf e < size) :
    ∀ p ∈ Place.exprs depth inner es, p.Under depth ctx size := by
  intro p listed
  obtain ⟨e, inside, rfl⟩ := List.mem_map.mp listed
  exact ⟨.inr ⟨rfl, Nat.add_lt_add_left (smaller e inside) 1⟩, base⟩

theorem relation_under {r : Relation} (base : inner.base = ctx.base) (smaller : sizeOf r < size) :
    Under depth ctx size ⟨depth, inner, .relation r⟩ :=
  ⟨.inr ⟨rfl, Nat.add_lt_add_left smaller 1⟩, base⟩

theorem relations_under {rs : List Relation} (base : inner.base = ctx.base)
    (smaller : ∀ r ∈ rs, sizeOf r < size) :
    ∀ p ∈ Place.relations depth inner rs, p.Under depth ctx size := by
  intro p listed
  obtain ⟨r, inside, rfl⟩ := List.mem_map.mp listed
  exact relation_under base (smaller r inside)

theorem query_under {r : Relation} (base : inner.base = ctx.base) (smaller : sizeOf r < size) :
    (Place.query depth inner r).Under depth ctx size :=
  relation_under ((inner.base_querying r).trans base) smaller

theorem linked_under (target : Except Error Node) :
    ∀ p ∈ Place.linked depth ctx target, p.Under depth ctx size := by
  intro p listed
  cases depth with
  | zero => cases listed
  | succ depth =>
      cases target with
      | error e => cases listed
      | ok node =>
          -- the node may be larger than the one that it stands for, but a link was followed
          cases List.mem_singleton.mp listed
          exact ⟨.inl (Nat.lt_succ_self depth), rfl⟩

end Place

open Place

theorem Expr.places_under (e : Expr) :
    ∀ p ∈ e.places store settings depth ctx, p.Under depth ctx (sizeOf e) := by
  cases e with
  | placeholder id name => exact linked_under _
  | param name => exact linked_under _
  | subquery r => exact List.forall_mem_singleton.mpr (query_under rfl (by simp))
  | _ => exact exprs_under rfl fun c => Expr.sizeOf_lt_of_child

theorem GroupingOf.places_under (g : Grouping) :
    ∀ p ∈ g.places depth ctx, p.Under depth ctx (sizeOf (Relation.grouping g)) := by
  have own : ∀ e ∈ g.outputs ++ g.having, sizeOf e < sizeOf (Relation.grouping g) :=
    fun e listed => Relation.sizeOf_lt_of_expr (r := .grouping g) listed
  have table : sizeOf g.table < sizeOf (Relation.grouping g) :=
    Relation.sizeOf_lt_of_source List.mem_cons_self
  obtain ⟨outputs, having⟩ := List.forall_mem_append.mp own
  unfold GroupingOf.places
  cases absorbed : g.absorbed? with
  | some s =>
      -- the parts of the SELECT are two levels down
      have isSelect := (GroupingOf.eq_of_absorbed absorbed).1
      have source : ∀ r ∈ s.table.toList, sizeOf r < sizeOf (Relation.grouping g) := by
        intro r listed
        refine Nat.lt_trans ?_ table
        rw [isSelect]
        exact Relation.sizeOf_lt_of_source listed
      have exprs : ∀ e ∈ s.exprs, sizeOf e < sizeOf (Relation.grouping g) := by
        intro e listed
        refine Nat.lt_trans ?_ table
        rw [isSelect]
        exact Relation.sizeOf_lt_of_expr listed
      simp only [SelectOf.exprs, List.forall_mem_append] at exprs
      simp only [List.forall_mem_append, exprs_append]
      exact ⟨⟨exprs_under rfl outputs, relations_under rfl source⟩,
        ⟨exprs_under rfl exprs.1.1.1.2, exprs_under rfl having⟩, exprs_under rfl exprs.2⟩
  | none =>
      simp only [List.forall_mem_append, List.forall_mem_singleton]
      exact ⟨⟨exprs_under rfl outputs, relation_under rfl table⟩, exprs_under rfl having⟩

theorem Relation.places_under (r : Relation) (aliases : List ScopedAlias) :
    ∀ p ∈ r.places settings depth ctx aliases, p.Under depth ctx (sizeOf r) := by
  have sources : ∀ s ∈ r.sources, sizeOf s < sizeOf r := fun s => Relation.sizeOf_lt_of_source
  have exprs : ∀ e ∈ r.exprs, sizeOf e < sizeOf r := fun e => Relation.sizeOf_lt_of_expr
  cases r with
  | table t => exact List.forall_mem_nil _
  | aliased a =>
      exact List.forall_mem_singleton.mpr (relation_under rfl (sources _ List.mem_cons_self))
  | join j =>
      exact List.forall_mem_append.mpr ⟨relations_under rfl sources, exprs_under rfl exprs⟩
  | grouping g => exact g.places_under
  | setOperation o =>
      obtain ⟨left, right⟩ := List.forall_mem_cons.mp sources
      exact List.forall_mem_cons.mpr ⟨query_under rfl left,
        List.forall_mem_singleton.mpr (query_under rfl (right _ List.mem_cons_self))⟩
  | select s =>
      simp only [Relation.exprs, SelectOf.exprs, List.append_assoc] at exprs
      obtain ⟨columns, others⟩ := List.forall_mem_append.mp exprs
      simp only [Relation.places, List.append_assoc, List.forall_mem_append]
      exact ⟨exprs_under rfl columns, relations_under rfl sources, exprs_under rfl others⟩
  | cte c => exact List.forall_mem_singleton.mpr (query_under rfl (sources _ List.mem_cons_self))
  | param p => exact linked_under _

theorem Statement.places_under (s : Statement) :
    ∀ p ∈ s.places depth ctx, p.Under depth ctx (sizeOf s) := by
  have sources : ∀ r ∈ s.sources, sizeOf r < sizeOf s := fun r => Statement.sizeOf_lt_of_source
  cases s with
  | create s => exact relations_under rfl sources
  | drop s => exact List.forall_mem_nil _
  | truncate t => exact List.forall_mem_nil _
  | insert s =>
      obtain ⟨table, source, columns⟩ := s
      cases source with
      | rows rows => exact List.forall_mem_nil _
      | query r =>
          exact List.forall_mem_singleton.mpr (relation_under rfl (sources r List.mem_cons_self))
  | commit => exact List.forall_mem_nil _
  | explain query =>
      exact List.forall_mem_singleton.mpr (query_under rfl (sources query List.mem_cons_self))

end Under

namespace Passage

variable (store : Store) (settings : Settings)

theorem under_of_part {p q : Passage} (part : q ∈ p.parts store settings) :
    (q.depth < p.depth ∨ q.depth = p.depth ∧ sizeOf q.node < sizeOf p.node) ∧
      q.ctx.base = p.ctx.base := by
  have listed : q.toPlace ∈ p.places store settings := place_mem_of_inTurn part
  obtain ⟨⟨depth, ctx, node⟩, draft⟩ := p
  cases node with
  | expr e =>
      have under := e.places_under q.toPlace listed
      exact ⟨under.smaller, under.base⟩
  | relation r =>
      have under := r.places_under _ q.toPlace listed
      exact ⟨under.smaller, under.base⟩
  | statement s =>
      have under := s.places_under q.toPlace listed
      exact ⟨under.smaller, under.base⟩

theorem lt_of_part {p q : Passage} (part : q ∈ p.parts store settings) :
    Prod.Lex (· < ·) (· < ·) (q.depth, sizeOf q.node) (p.depth, sizeOf p.node) :=
  Prod.lex_def.mpr (under_of_part store settings part).1

theorem induction {motive : Passage → Prop}
    (step : ∀ p : Passage, (∀ q ∈ p.parts store settings, motive q) → motive p) (p : Passage) :
    motive p :=
  step p fun q _part => induction step q
termination_by (p.depth, sizeOf p.node)
decreasing_by exact lt_of_part store settings _part

/-- A passage with all passages inside it, those of a node before the node itself. -/
def visited (p : Passage) : List Passage :=
  ((p.parts store settings).attach.flatMap fun ⟨q, _part⟩ => visited q) ++ [p]
termination_by (p.depth, sizeOf p.node)
decreasing_by exact lt_of_part store settings _part

theorem visited_eq (p : Passage) :
    p.visited store settings =
      (p.parts store settings).flatMap (visited store settings) ++ [p] := by
  rw [visited, List.flatMap_subtype (fun _ _ => rfl), List.unattach_attach]

end Passage

end SqlQuery
