import SqlQuery.Proofs.Render.Outcome
import SqlQuery.Proofs.Render.Written

/-!
The definitions that a query writes on its way. Each time a CTE is written, its body is written
first and then defined under the CTE's name; so a query comes to a list of definitions, one for each
time, and the draft has gone through all of them in this order. A name that a body shows is that of
a CTE inside it, which was defined before.
-/

namespace SqlQuery

/-- The definition of a CTE at one of the places where the CTE is written. -/
structure Definition where
  cte : Cte
  name : String
  body : String
  /-- The names of CTEs that the body shows. -/
  references : List String

namespace Definition

/-- What stands before the body in the WITH clause. -/
def head (d : Definition) : String :=
  definitionHead d.cte.params d.name

def entry (d : Definition) : String × String :=
  (d.head, d.body)

def Defines (d : Definition) (name : String) : Prop :=
  ∃ params, d.head = definitionHead params name

/-- Each name that a body shows is defined before. -/
def InOrder (ds : List Definition) : Prop :=
  ∀ front d back, ds = front ++ d :: back → ∀ name ∈ d.references, ∃ e ∈ front, e.Defines name

theorem defines_name (d : Definition) : d.Defines d.name :=
  ⟨d.cte.params, rfl⟩

namespace InOrder

variable {first second : List Definition} {d : Definition}

theorem nil : InOrder [] := by
  intro front d back split
  simp at split

/-- Definitions may come after others that define what they need. -/
theorem extend (ordered : InOrder first)
    (later : ∀ front d back, second = front ++ d :: back →
      ∀ name ∈ d.references, ∃ e ∈ first ++ front, e.Defines name) :
    InOrder (first ++ second) := by
  intro front d back split name referred
  rcases List.append_eq_append_iff.mp split with ⟨middle, rfl, rest⟩ | ⟨middle, rfl, rest⟩
  · exact later middle d back rest name referred
  · cases middle with
    | nil =>
        rw [List.append_nil] at later
        simpa using later [] d back rest.symm name referred
    | cons d' middle =>
        obtain ⟨rfl, _⟩ := List.cons.inj rest
        exact ordered front d middle rfl name referred

theorem append (ordered : InOrder first) (later : InOrder second) : InOrder (first ++ second) := by
  apply ordered.extend
  intro front d back split name referred
  obtain ⟨e, before, defines⟩ := later front d back split name referred
  exact ⟨e, List.mem_append_right _ before, defines⟩

theorem concat (ordered : InOrder first)
    (defined : ∀ name ∈ d.references, ∃ e ∈ first, e.Defines name) : InOrder (first ++ [d]) := by
  apply ordered.extend
  intro front e back split
  obtain ⟨rfl, same⟩ := List.singleton_eq_append_iff.mp split |>.resolve_right nofun
  obtain ⟨rfl, _⟩ := List.cons.inj same
  rwa [List.append_nil]

theorem flatMap {α : Type} {f : α → List Definition} {as : List α}
    (each : ∀ a ∈ as, InOrder (f a)) : InOrder (as.flatMap f) := by
  induction as with
  | nil => exact nil
  | cons a rest ih =>
      obtain ⟨first, others⟩ := List.forall_mem_cons.mp each
      rw [List.flatMap_cons]
      exact first.append (ih others)

end InOrder

end Definition

/-! The definitions of a passage. -/

def CteOf.renderBody (links : Links) (ctx : Context) (c : Cte) : Rendering String :=
  ctx.defining.query c.source fun ctx => c.source.render links ctx

namespace Passage

variable (store : Store) (settings : Settings)

/-- The names of CTEs that the text of a passage shows. A CTE shows as its name alone. -/
def references (p : Passage) : List String :=
  match p.node with
  | .relation (.cte _) => (p.outcome store settings).1.toOption.toList
  | _ => (p.parts store settings).attach.flatMap fun ⟨q, _part⟩ => references q
termination_by (p.depth, sizeOf p.node)
decreasing_by exact lt_of_part store settings _part

/-- The definition that a passage adds after its parts. -/
def definition? (p : Passage) : Option Definition :=
  match p.node with
  | .relation (.cte c) =>
      match (p.outcome store settings).1,
        ((c.renderBody (settings.links store p.depth) p.ctx).outcome p.draft).1 with
      | .ok name, .ok body =>
          some ⟨c, name, body, (p.parts store settings).flatMap (references store settings)⟩
      | _, _ => none
  | _ => none

/-- The definitions of all CTEs of a passage, in the order in which they are made. -/
def definitions (p : Passage) : List Definition :=
  (p.visited store settings).filterMap (definition? store settings)

end Passage

def Draft.register (entries : List (String × String)) (d : Definition) : List (String × String) :=
  Draft.define d.head d.body entries

namespace Passage

variable {store : Store} {settings : Settings} {p : Passage}

theorem definitions_eq (p : Passage) :
    p.definitions store settings =
      (p.parts store settings).flatMap (definitions store settings) ++
        (p.definition? store settings).toList := by
  rw [definitions, visited_eq, List.filterMap_append, List.filterMap_flatMap]
  congr 1

theorem references_of_cte {c : Cte} (isCte : p.node = .relation (.cte c)) :
    p.references store settings = (p.outcome store settings).1.toOption.toList := by
  rw [references, isCte]

theorem references_of_not_cte (notCte : ∀ c, p.node ≠ .relation (.cte c)) :
    p.references store settings =
      (p.parts store settings).flatMap (references store settings) := by
  rw [references]
  split
  · exact absurd ‹_› (notCte _)
  · rw [List.flatMap_subtype (fun _ _ => rfl), List.unattach_attach]

section Parts

variable {depth : Nat} {ctx : Context} {draft : Draft}

theorem references_table (t : Table) :
    references store settings ⟨⟨depth, ctx, .relation (.table t)⟩, draft⟩ = [] := by
  rw [references_of_not_cte (fun c same => by cases same), parts_table, List.flatMap_nil]

theorem references_cte (c : Cte) :
    references store settings ⟨⟨depth, ctx, .relation (.cte c)⟩, draft⟩ =
      (outcome store settings ⟨⟨depth, ctx, .relation (.cte c)⟩, draft⟩).1.toOption.toList :=
  references_of_cte rfl

theorem definitions_table (t : Table) :
    definitions store settings ⟨⟨depth, ctx, .relation (.table t)⟩, draft⟩ = [] := by
  rw [definitions_eq, parts_table]
  rfl

theorem definitions_cte (c : Cte) :
    definitions store settings ⟨⟨depth, ctx, .relation (.cte c)⟩, draft⟩ =
      definitions store settings ⟨.query depth ctx.defining c.source, draft⟩ ++
        (definition? store settings ⟨⟨depth, ctx, .relation (.cte c)⟩, draft⟩).toList := by
  rw [definitions_eq, parts_cte, List.flatMap_singleton]

theorem definitions_setOperation (o : SetOperation) :
    let left : Passage := ⟨.query depth (ctx.placed false ctx.inJoin) o.left, draft⟩
    definitions store settings ⟨⟨depth, ctx, .relation (.setOperation o)⟩, draft⟩ =
      left.definitions store settings ++ definitions store settings
        ⟨.query depth (ctx.placed false ctx.inJoin) o.right, left.after store settings⟩ := by
  rw [definitions_eq, parts_setOperation]
  simp only [List.flatMap_cons, List.flatMap_nil, List.append_nil]
  exact List.append_nil _

end Parts

theorem definition?_of_not_cte (notCte : ∀ c, p.node ≠ .relation (.cte c)) :
    p.definition? store settings = none := by
  unfold definition?
  split
  · exact absurd ‹_› (notCte _)
  · rfl

theorem definitions_of_enclose {ctx : Context} {draft final : Draft} {sql text : String}
    (enclosed : (ctx.enclose sql).outcome draft = (.ok text, final)) :
    final.definitions = draft.definitions := by
  unfold Context.enclose at enclosed
  split at enclosed
  · cases enclosed
    rfl
  · split at enclosed
    · cases enclosed
      rfl
    · cases enclosed
      rfl

theorem definitions_of_closing {c : Cte} {depth : Nat} {ctx : Context} {draft final : Draft}
    {body name : String}
    (closed : (Place.closing ⟨depth, ctx, .relation (.cte c)⟩ body).outcome draft =
      (.ok name, final)) :
    final.definitions = Draft.define (definitionHead c.params name) body draft.definitions := by
  obtain ⟨id, source, given, params⟩ := c
  cases given with
  | none =>
      cases closed
      rfl
  | some given =>
      cases closed
      rfl

theorem definitions_of_closing_of_not_cte {draft final : Draft} {sql text : String}
    (notCte : ∀ c, p.node ≠ .relation (.cte c))
    (closed : (p.closing sql).outcome draft = (.ok text, final)) :
    final.definitions = draft.definitions := by
  obtain ⟨⟨depth, ctx, node⟩, start⟩ := p
  unfold Place.closing at closed
  split at closed
  · exact definitions_of_enclose closed
  · exact definitions_of_enclose closed
  · exact definitions_of_enclose closed
  · exact definitions_of_enclose closed
  · exact absurd ‹_› (notCte _)
  · obtain ⟨explained, middle, queried, finished⟩ := ExceptT.outcome_bind_eq_ok.mp closed
    cases finished
    unfold Context.queried at queried
    split at queried
    · cases queried
      rfl
    · exact definitions_of_enclose queried
  · cases closed
    rfl

/-- A CTE that is written has a body, which is defined under the CTE's name after all else. -/
theorem definition?_of_cte {c : Cte} {name : String} {final : Draft}
    (isCte : p.node = .relation (.cte c))
    (written : p.outcome store settings = (.ok name, final)) :
    ∃ d, p.definition? store settings = some d ∧ d.name = name ∧
      d.references = (p.parts store settings).flatMap (references store settings) ∧
      final.definitions = Draft.register (p.middle store settings).definitions d := by
  obtain ⟨⟨depth, ctx, node⟩, draft⟩ := p
  cases isCte
  have outcome : ((Relation.cte c).render (settings.links store depth) ctx).outcome draft =
    (.ok name, final) := written
  rw [Relation.render_cte] at outcome
  obtain ⟨body, middle, bodyWritten, named⟩ := ExceptT.outcome_bind_eq_ok.mp outcome
  have writes : Rendering.Writes store settings [Place.query depth ctx.defining c.source]
      (c.renderBody (settings.links store depth) ctx) := .query rfl c.source
  -- nothing comes between the body and its definition
  obtain ⟨-, rfl⟩ := writes draft body middle bodyWritten
  have bodyGiven :
      ((c.renderBody (settings.links store depth) ctx).outcome draft).1 = .ok body := by
    rw [CteOf.renderBody, bodyWritten]
  have closed : (Place.closing ⟨depth, ctx, .relation (.cte c)⟩ body).outcome
    (middle store settings ⟨⟨depth, ctx, .relation (.cte c)⟩, draft⟩) = (.ok name, final) := named
  simp only [definition?, written, bodyGiven]
  exact ⟨_, rfl, rfl, rfl, definitions_of_closing closed⟩

/-! The definitions of a passage that comes to a text. -/

theorem after_definitions (written : p.Written store settings) :
    (p.after store settings).definitions =
      (p.definition? store settings).toList.foldl Draft.register
        (p.middle store settings).definitions := by
  obtain ⟨text, outcome⟩ := (written_iff p).mp written
  by_cases isCte : ∃ c, p.node = .relation (.cte c)
  · obtain ⟨c, isCte⟩ := isCte
    obtain ⟨d, defined, -, -, registered⟩ := definition?_of_cte isCte outcome
    rw [registered, defined]
    rfl
  · have notCte : ∀ c, p.node ≠ .relation (.cte c) := not_exists.mp isCte
    rw [definition?_of_not_cte notCte]
    obtain ⟨sql, closed⟩ := (parts_written outcome).2
    exact definitions_of_closing_of_not_cte notCte closed

theorem afterAll_definitions {places : List Place} {draft : Draft}
    (each : ∀ p ∈ inTurn store settings places draft, (p.after store settings).definitions =
      (p.definitions store settings).foldl Draft.register p.draft.definitions) :
    (afterAll store settings places draft).definitions =
      ((inTurn store settings places draft).flatMap (definitions store settings)).foldl
        Draft.register draft.definitions := by
  induction places generalizing draft with
  | nil => rfl
  | cons place rest ih =>
      obtain ⟨first, others⟩ := List.forall_mem_cons.mp each
      rw [afterAll, ih others, first, inTurn, List.flatMap_cons, List.foldl_append]

/-- A passage that comes to a text has registered its definitions, one after the other. -/
theorem after_eq_foldl (written : p.Written store settings) :
    (p.after store settings).definitions =
      (p.definitions store settings).foldl Draft.register p.draft.definitions := by
  induction p using Passage.induction store settings with
  | step p ih =>
      obtain ⟨text, outcome⟩ := (written_iff p).mp written
      obtain ⟨parts, -⟩ := parts_written outcome
      -- the parts have registered theirs by the time that a CTE registers its own
      have before : (p.middle store settings).definitions = _ :=
        afterAll_definitions fun q part => ih q part (parts q part)
      rw [after_definitions written, before, opening_definitions, definitions_eq, List.foldl_append]
      rfl

/-! Names are defined before they are referred to. -/

theorem eq_of_definition? {d : Definition} (defined : p.definition? store settings = some d) :
    p.node = .relation (.cte d.cte) ∧
      ((d.cte.renderBody (settings.links store p.depth) p.ctx).outcome p.draft).1 = .ok d.body ∧
      d.references = (p.parts store settings).flatMap (references store settings) := by
  unfold definition? at defined
  split at defined
  · rename_i c isCte
    split at defined
    · rename_i name body named bodyGiven
      cases defined
      exact ⟨isCte, bodyGiven, rfl⟩
    · cases defined
  · cases defined

theorem inOrder_definitions (p : Passage) :
    Definition.InOrder (p.definitions store settings) ∧
      ∀ name ∈ p.references store settings, ∃ d ∈ p.definitions store settings, d.Defines name := by
  induction p using Passage.induction store settings with
  | step p ih =>
      have inner : Definition.InOrder
          ((p.parts store settings).flatMap (definitions store settings)) :=
        .flatMap fun q part => (ih q part).1
      have shown : ∀ name ∈ (p.parts store settings).flatMap (references store settings),
          ∃ d ∈ (p.parts store settings).flatMap (definitions store settings),
            d.Defines name := by
        intro name referred
        obtain ⟨q, part, inside⟩ := List.mem_flatMap.mp referred
        obtain ⟨d, listed, defines⟩ := (ih q part).2 name inside
        exact ⟨d, List.mem_flatMap.mpr ⟨q, part, listed⟩, defines⟩
      -- a CTE hides the names that its parts show: its body needs them, and they come before it
      rw [definitions_eq]
      constructor
      · cases defined : p.definition? store settings with
        | none => simpa using inner
        | some d =>
            apply inner.concat
            rw [(eq_of_definition? defined).2.2]
            exact shown
      · intro name referred
        by_cases isCte : ∃ c, p.node = .relation (.cte c)
        · obtain ⟨c, isCte⟩ := isCte
          rw [references_of_cte isCte] at referred
          cases given : (p.outcome store settings).1 with
          | error e => simp [given, Except.toOption] at referred
          | ok text =>
              obtain ⟨d, defined, rfl, -⟩ := definition?_of_cte isCte (Prod.ext given rfl)
              simp only [given, Except.toOption, Option.toList_some, List.mem_singleton] at referred
              subst referred
              exact ⟨d, by simp [defined], d.defines_name⟩
        · rw [references_of_not_cte (not_exists.mp isCte)] at referred
          obtain ⟨d, listed, defines⟩ := shown name referred
          exact ⟨d, List.mem_append_left _ listed, defines⟩

theorem base_of_visited {q : Passage} (inside : q ∈ p.visited store settings) :
    q.ctx.base = p.ctx.base := by
  induction p using Passage.induction store settings with
  | step p ih =>
      rw [visited_eq, List.mem_append, List.mem_flatMap] at inside
      rcases inside with ⟨part, listed, inside⟩ | own
      · rw [ih part listed inside, (under_of_part store settings listed).2]
      · rw [List.mem_singleton.mp own]

end Passage

/-! The definitions of a whole query. -/

def Node.rootPlaces (depth : Nat) (ctx : Context) : Node → List Place
  | .expr (.code _) => []
  | .expr e => [⟨depth, ctx.placed true ctx.inJoin, .expr e⟩]
  | .relation r => [Place.query depth ctx r]
  | .statement s => [⟨depth, ctx, .statement s⟩]

namespace Node

variable (store : Store) (settings : Settings)

def roots (node : Node) : List Passage :=
  Passage.inTurn store settings (node.rootPlaces (settings.depth store) settings.context) {}

/-- The definitions that a query makes, one for each time that a CTE is written. -/
def definitions (node : Node) : List Definition :=
  (node.roots store settings).flatMap (Passage.definitions store settings)

variable {store settings} {node : Node} {depth : Nat} {ctx : Context}

theorem definitions_relation (r : Relation) :
    (Node.relation r).definitions store settings =
      Passage.definitions store settings
        ⟨.query (settings.depth store) settings.context r, {}⟩ :=
  List.flatMap_singleton _ _

open Rendering in
theorem renderRoot_writes (outside : ctx.inSelect = false) (node : Node) :
    Writes store settings (node.rootPlaces depth ctx)
      (node.renderRoot (settings.links store depth) ctx) := by
  cases node with
  | relation r => exact .query outside r
  | statement s => exact .node ⟨depth, ctx, .statement s⟩
  | expr e =>
      by_cases code : ∃ sql, e = .code sql
      · obtain ⟨sql, rfl⟩ := code
        exact .pure sql
      · have notCode : ∀ sql, e ≠ .code sql := not_exists.mp code
        have places : (Node.expr e).rootPlaces depth ctx =
            ([⟨depth, ctx.placed true ctx.inJoin, .expr e⟩] ++
              ([] ++ ([] ++ ([] ++ ([] ++ []))))) ++ [] := by
          cases e with
          | code sql => exact absurd rfl (notCode sql)
          | _ => rfl
        rw [renderRoot_expr _ _ notCode, places]
        refine (Writes.selectText ?_ (.pure _) (.pure _) (.pure _) (.pure _) (.pure _)).bind
          fun sql => .enclose outside sql
        exact (Writes.expr e).map

theorem roots_written {body : String} {draft : Draft}
    (rendered : (node.renderRoot (settings.links store (settings.depth store))
      settings.context).outcome {} = (.ok body, draft)) :
    (∀ p ∈ node.roots store settings, p.Written store settings) ∧
      draft = Passage.afterAll store settings
        (node.rootPlaces (settings.depth store) settings.context) {} :=
  renderRoot_writes rfl node {} body draft rendered

theorem definitions_of_rendered {body : String} {draft : Draft}
    (rendered : (node.renderRoot (settings.links store (settings.depth store))
      settings.context).outcome {} = (.ok body, draft)) :
    draft.definitions = (node.definitions store settings).foldl Draft.register [] := by
  obtain ⟨written, rfl⟩ := roots_written rendered
  exact Passage.afterAll_definitions fun p root => Passage.after_eq_foldl (written p root)

/-- A query that comes to a text begins with what is left of its definitions. -/
theorem compile_eq_withClause {sql : String} (compiled : node.compile store settings = .ok sql) :
    ∃ body, sql = Draft.withClause
      { definitions := (node.definitions store settings).foldl Draft.register [] } body := by
  obtain ⟨body, draft, rendered, rfl⟩ := compileWithin_eq_ok.mp compiled
  refine ⟨body, ?_⟩
  simp only [Draft.withClause, definitions_of_rendered rendered]

theorem inOrder_definitions (node : Node) :
    Definition.InOrder (node.definitions store settings) :=
  .flatMap fun p _ => p.inOrder_definitions.1

end Node

end SqlQuery
