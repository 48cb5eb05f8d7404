import Mathlib.Data.List.Induction
import SqlQuery.Dialect.DuckDB
import SqlQuery.Proofs.Render.Definition
import SqlQuery.Proofs.Rows.Ordering

/-!
The WITH clause. A query registers a definition each time that it writes a CTE, and a definition
takes the place of an earlier one under the same head: the clause has the last body of each head,
where the first one stood. So the clause need not be in order, although the definitions are, and a
body can be lost.
-/

namespace SqlQuery

open Rows

/-- An element is before another in a list without its duplicates if it is before all occurrences of
the other in the list. -/
theorem mem_before_eraseDups_iff {α : Type} [BEq α] [LawfulBEq α] {as front back : List α} {a b : α}
    (split : as.eraseDups = front ++ b :: back) : a ∈ front ↔ a ∈ as.takeWhile (· != b) := by
  induction as generalizing front back with
  | nil => simp at split
  | cons c as ih =>
      rw [eraseDups_cons_filter] at split
      cases front with
      | nil =>
          obtain ⟨rfl, -⟩ := List.cons.inj split
          simp
      | cons c' front =>
          obtain ⟨rfl, rest⟩ := List.cons.inj split
          -- before they are filtered, the elements before the other one may have `c` among them
          obtain ⟨first, second, whole, rfl, tail⟩ := List.filter_eq_append_iff.mp rest
          obtain ⟨skipped, others, rfl, isFirst, other, -⟩ := List.filter_eq_cons_iff.mp tail
          have inner : a ∈ first ++ skipped ↔ a ∈ as.takeWhile (· != b) :=
            ih (by rw [whole, List.append_assoc])
          have differs : (c != b) = true := bne_iff_ne.mpr fun same => by simp [same] at other
          rw [List.takeWhile_cons_of_pos (p := (· != b)) differs, List.mem_cons, List.mem_cons,
            ← inner]
          by_cases same : a = c
          · simp [same]
          · have notSkipped : a ∉ skipped := fun inside => isFirst a inside (by simpa using same)
            simp [same, notSkipped]

namespace Definition

variable {d e : Definition} {ds kept : List Definition}

/-! What is left of the definitions. -/

/-- Puts a definition in the place of the one under its head, or at the end. -/
def put : List Definition → Definition → List Definition
  | [], d => [d]
  | e :: rest, d => if e.head = d.head then d :: rest else e :: put rest d

/-- Of the definitions under each head the last one, where the first one was. -/
def surviving (ds : List Definition) : List Definition :=
  ds.foldl put []

theorem map_entry_put (kept : List Definition) (d : Definition) :
    (put kept d).map entry = Draft.register (kept.map entry) d := by
  induction kept with
  | nil => rfl
  | cons e rest ih =>
      rw [put, List.map_cons, Draft.register, entry, Draft.define]
      split
      · rename_i same
        rw [List.map_cons, entry, same]
      · rw [List.map_cons, ih]
        rfl

theorem map_entry_surviving (ds : List Definition) :
    (surviving ds).map entry = ds.foldl Draft.register [] :=
  (List.foldl_hom (List.map entry) fun kept d => (map_entry_put kept d).symm).symm

theorem surviving_concat (ds : List Definition) (d : Definition) :
    surviving (ds ++ [d]) = put (surviving ds) d :=
  List.foldl_concat ..

theorem heads_put (kept : List Definition) (d : Definition) :
    (put kept d).map head =
      if d.head ∈ kept.map head then kept.map head else kept.map head ++ [d.head] := by
  induction kept with
  | nil => simp [put]
  | cons e rest ih =>
      by_cases same : e.head = d.head
      · simp [put, same]
      · simp only [put, if_neg same, List.map_cons, List.mem_cons, ih, Ne.symm same, false_or]
        split <;> rfl

theorem heads_surviving (ds : List Definition) :
    (surviving ds).map head = (ds.map head).eraseDups := by
  induction ds using List.reverseRecOn with
  | nil => rfl
  | append_singleton ds d ih =>
      rw [surviving_concat, heads_put, ih, List.map_append, List.eraseDups_append]
      by_cases again : d.head ∈ ds.map head
      · rw [if_pos (List.mem_eraseDups.mpr again)]
        simp [List.removeAll, List.mem_map.mp again]
      · rw [if_neg fun inside => again (List.mem_eraseDups.mp inside)]
        simp [List.removeAll, mt List.mem_map.mpr again, List.eraseDups_cons]

theorem nodup_heads_surviving (ds : List Definition) : ((surviving ds).map head).Nodup := by
  induction ds using List.reverseRecOn with
  | nil => exact .nil
  | append_singleton ds d ih =>
      rw [surviving_concat, heads_put]
      split
      · exact ih
      · rename_i new
        rw [← List.concat_eq_append]
        exact ih.concat new

/-- The definition after the given ones is the last under its head. -/
def Lasting (ds before : List Definition) (d : Definition) : Prop :=
  ∃ after, ds = before ++ d :: after ∧ ∀ e ∈ after, e.head ≠ d.head

theorem not_lasting_nil {before : List Definition} : ¬ Lasting [] before d := by
  rintro ⟨after, split, -⟩
  simp at split

theorem lasting_cons {before : List Definition} :
    Lasting (e :: ds) before d ↔
      before = [] ∧ d = e ∧ (∀ f ∈ ds, f.head ≠ e.head) ∨
        ∃ rest, before = e :: rest ∧ Lasting ds rest d := by
  constructor
  · rintro ⟨after, split, last⟩
    cases before with
    | nil =>
        obtain ⟨rfl, rfl⟩ := List.cons.inj split
        exact .inl ⟨rfl, rfl, last⟩
    | cons f rest =>
        obtain ⟨rfl, tail⟩ := List.cons.inj split
        exact .inr ⟨rest, rfl, after, tail, last⟩
  · rintro (⟨rfl, rfl, last⟩ | ⟨rest, rfl, after, rfl, last⟩)
    · exact ⟨ds, rfl, last⟩
    · exact ⟨after, rfl, last⟩

theorem lasting_concat {before : List Definition} :
    Lasting (ds ++ [e]) before d ↔
      before = ds ∧ d = e ∨ Lasting ds before d ∧ d.head ≠ e.head := by
  constructor
  · rintro ⟨after, split, last⟩
    induction after using List.reverseRecOn with
    | nil =>
        obtain ⟨rfl, same⟩ := List.append_inj' split rfl
        exact .inl ⟨rfl, (List.singleton_inj.mp same).symm⟩
    | append_singleton after f _ =>
        rw [← List.cons_append, ← List.append_assoc] at split
        obtain ⟨rfl, same⟩ := List.append_inj' split rfl
        cases List.singleton_inj.mp same
        exact .inr ⟨⟨after, rfl, fun f inside => last f (List.mem_append_left _ inside)⟩,
          (last e (by simp)).symm⟩
  · rintro (⟨rfl, rfl⟩ | ⟨⟨after, rfl, last⟩, other⟩)
    · exact ⟨[], rfl, nofun⟩
    · refine ⟨after ++ [e], by simp, ?_⟩
      exact List.forall_mem_append.mpr ⟨last, List.forall_mem_singleton.mpr other.symm⟩

theorem mem_put (distinct : (kept.map head).Nodup) :
    e ∈ put kept d ↔ e = d ∨ e ∈ kept ∧ e.head ≠ d.head := by
  induction kept with
  | nil => simp [put]
  | cons f rest ih =>
      rw [List.map_cons, List.nodup_cons] at distinct
      obtain ⟨first, others⟩ := distinct
      have elsewhere : e ∈ rest → e.head ≠ f.head :=
        fun inside same => first (same ▸ List.mem_map_of_mem inside)
      rw [put]
      split
      · rename_i same
        rw [same] at elsewhere
        simp only [List.mem_cons]
        constructor
        · rintro (rfl | inside)
          · exact .inl rfl
          · exact .inr ⟨.inr inside, elsewhere inside⟩
        · rintro (rfl | ⟨rfl | inside, other⟩)
          · exact .inl rfl
          · exact absurd same other
          · exact .inr inside
      · rename_i other
        simp only [List.mem_cons, ih others]
        constructor
        · rintro (rfl | rfl | ⟨inside, differs⟩)
          · exact .inr ⟨.inl rfl, other⟩
          · exact .inl rfl
          · exact .inr ⟨.inr inside, differs⟩
        · rintro (rfl | ⟨rfl | inside, differs⟩)
          · exact .inr (.inl rfl)
          · exact .inl rfl
          · exact .inr (.inr ⟨inside, differs⟩)

theorem mem_surviving : d ∈ surviving ds ↔ ∃ before, Lasting ds before d := by
  induction ds using List.reverseRecOn with
  | nil => simp [surviving, Lasting]
  | append_singleton ds e ih =>
      rw [surviving_concat, mem_put (nodup_heads_surviving ds), ih]
      simp only [lasting_concat]
      constructor
      · rintro (rfl | ⟨⟨before, lasting⟩, other⟩)
        · exact ⟨ds, .inl ⟨rfl, rfl⟩⟩
        · exact ⟨before, .inr ⟨lasting, other⟩⟩
      · rintro ⟨before, ⟨-, rfl⟩ | ⟨lasting, other⟩⟩
        · exact .inl rfl
        · exact .inr ⟨⟨before, lasting⟩, other⟩

theorem exists_defines_iff (name : String) :
    (∃ e ∈ ds, e.Defines name) ↔ ∃ h ∈ ds.map head, ∃ params, h = definitionHead params name := by
  constructor
  · rintro ⟨e, listed, defines⟩
    exact ⟨e.head, List.mem_map_of_mem listed, defines⟩
  · rintro ⟨h, listed, defines⟩
    obtain ⟨e, inside, rfl⟩ := List.mem_map.mp listed
    exact ⟨e, inside, defines⟩

theorem exists_before_iff {front back : List Definition} (split : surviving ds = front ++ d :: back)
    (name : String) :
    (∃ e ∈ front, e.Defines name) ↔
      ∃ e ∈ ds.takeWhile (·.head != d.head), e.Defines name := by
  have heads : (ds.map head).eraseDups = front.map head ++ d.head :: back.map head := by
    rw [← heads_surviving, split, List.map_append, List.map_cons]
  have before : (ds.takeWhile (·.head != d.head)).map head =
      (ds.map head).takeWhile (· != d.head) := by
    rw [List.takeWhile_map]
    rfl
  rw [exists_defines_iff, exists_defines_iff, before]
  simp only [mem_before_eraseDups_iff heads]

theorem takeWhile_of_replaced {before : List Definition} (after : List Definition)
    (replaced : ∃ e ∈ before, e.head = d.head) :
    (before ++ after).takeWhile (·.head != d.head) = before.takeWhile (·.head != d.head) := by
  induction before with
  | nil => simp at replaced
  | cons f before ih =>
      by_cases same : f.head = d.head
      · simp [same]
      · have later : ∃ e ∈ before, e.head = d.head := by simpa [same] using replaced
        simp [same, ih later]

/-- What is left of definitions in order is in order, except that a definition which took the place
of another may need one that came after the other. -/
theorem inOrder_surviving_iff (ordered : InOrder ds) :
    InOrder (surviving ds) ↔
      ∀ before d, Lasting ds before d → (∃ e ∈ before, e.head = d.head) →
        ∀ name ∈ d.references, ∃ e ∈ before.takeWhile (·.head != d.head), e.Defines name := by
  constructor
  · rintro inOrder before d ⟨after, rfl, last⟩ replaced name referred
    obtain ⟨front, back, split⟩ :=
      List.append_of_mem (mem_surviving.mpr ⟨before, after, rfl, last⟩)
    have earlier := (exists_before_iff split name).mp (inOrder front d back split name referred)
    rwa [takeWhile_of_replaced _ replaced] at earlier
  · intro allowed front d back split name referred
    have kept : d ∈ surviving ds := split ▸ List.mem_append_right _ List.mem_cons_self
    obtain ⟨before, after, rfl, last⟩ := mem_surviving.mp kept
    rw [exists_before_iff split]
    by_cases replaced : ∃ e ∈ before, e.head = d.head
    · rw [takeWhile_of_replaced _ replaced]
      exact allowed before d ⟨after, rfl, last⟩ replaced name referred
    · -- a definition in its own place has all the earlier ones before it
      have new : ∀ e ∈ before, (e.head != d.head) = true :=
        fun e inside => bne_iff_ne.mpr fun same => replaced ⟨e, inside, same⟩
      rw [List.takeWhile_append_of_pos new, List.takeWhile_cons_of_neg (by simp), List.append_nil]
      exact ordered before d after rfl name referred

end Definition

open Definition

theorem Node.compile_eq_surviving {store : Store} {settings : Settings} {node : Node} {sql : String}
    (compiled : node.compile store settings = .ok sql) :
    ∃ body, sql = Draft.withClause
      { definitions := (surviving (node.definitions store settings)).map entry } body := by
  rw [map_entry_surviving]
  exact node.compile_eq_withClause compiled

theorem Draft.withClause_of_nil {draft : Draft} (none : draft.definitions = []) (body : String) :
    draft.withClause body = body := by
  rw [Draft.withClause, none]

theorem Draft.withClause_of_ne_nil {draft : Draft} (some : draft.definitions ≠ []) (body : String) :
    ∃ rest, draft.withClause body = "WITH " ++ rest := by
  unfold Draft.withClause
  split
  · exact absurd ‹_› some
  · exact ⟨_, by rw [String.append_assoc, String.append_assoc]⟩

theorem Draft.length_le_withClause (draft : Draft) (body : String) :
    body.length ≤ (draft.withClause body).length := by
  unfold Draft.withClause
  split
  · exact Nat.le_refl _
  · simp only [String.length_append]
    omega

theorem Node.heads_of_rendered {store : Store} {settings : Settings} {node : Node} {body : String}
    {draft : Draft} (rendered : (node.renderRoot (settings.links store (settings.depth store))
      settings.context).outcome {} = (.ok body, draft)) :
    draft.definitions.map Prod.fst = (surviving (node.definitions store settings)).map head := by
  rw [definitions_of_rendered rendered, ← map_entry_surviving, List.map_map]
  rfl

theorem Node.definitions_eq_nil_iff {store : Store} {settings : Settings} {node : Node}
    {body : String} {draft : Draft}
    (rendered : (node.renderRoot (settings.links store (settings.depth store))
      settings.context).outcome {} = (.ok body, draft)) :
    draft.definitions = [] ↔ node.definitions store settings = [] := by
  have heads := heads_of_rendered rendered
  rw [heads_surviving] at heads
  constructor
  · intro none
    apply List.eq_nil_iff_forall_not_mem.mpr
    intro d made
    have listed : d.head ∈ (List.map head (node.definitions store settings)).eraseDups :=
      List.mem_eraseDups.mpr (List.mem_map_of_mem made)
    rw [← heads, none] at listed
    cases listed
  · intro none
    rw [none] at heads
    exact List.map_eq_nil_iff.mp heads

/-- The WITH clause of a query has the last of the definitions under each head, where the first one
was. It is in order if and only if no definition that took the place of another needs one that came
after the other. -/
theorem Node.withClause_inOrder_iff {store : Store} {settings : Settings} {node : Node}
    {sql : String} (compiled : node.compile store settings = .ok sql) :
    let written := node.definitions store settings
    (∃ body, sql = Draft.withClause { definitions := (surviving written).map entry } body) ∧
      (InOrder (surviving written) ↔
        ∀ before d, Lasting written before d → (∃ e ∈ before, e.head = d.head) →
          ∀ name ∈ d.references, ∃ e ∈ before.takeWhile (·.head != d.head), e.Defines name) :=
  ⟨Node.compile_eq_surviving compiled, inOrder_surviving_iff node.inOrder_definitions⟩

theorem eq_of_definitionHead {params : Option (List String)} {head name : String}
    (defined : head = definitionHead params name) (short : head.length ≤ name.length) :
    head = name := by
  rcases params with _ | _ | ⟨param, params⟩
  · exact defined
  · exact defined
  · have longer := congrArg String.length defined
    simp only [definitionHead, String.length_append, show "(".length = 1 from rfl] at longer
    omega

/-! A report that uses its totals twice, with the orders that they are computed from as a CTE of
their own, under a name or not. -/

namespace Totals

def orders : Relation :=
  .table ⟨⟨0⟩, .orders, none⟩

def recent (name : Option String) : Cte :=
  ⟨⟨1⟩, orders, name, none⟩

def totals (name : Option String) : Cte :=
  ⟨⟨2⟩, .cte (recent name), some "totals", none⟩

def report (name : Option String) : Node :=
  .relation (.setOperation ⟨⟨3⟩, .union, .cte (totals name), .cte (totals name)⟩)

def settings : Settings := { dialect := .duckDB }

theorem definitions_of_report :
    (report (some "recent")).definitions {} settings =
      [⟨recent (some "recent"), "recent", "SELECT * FROM \"orders\"", []⟩,
        ⟨totals (some "recent"), "totals", "SELECT * FROM recent", ["recent"]⟩,
        ⟨recent (some "recent"), "recent", "SELECT * FROM \"orders\"", []⟩,
        ⟨totals (some "recent"), "totals", "SELECT * FROM recent", ["recent"]⟩] ∧
    (report none).definitions {} settings =
      [⟨recent none, "tmp1", "SELECT * FROM \"orders\"", []⟩,
        ⟨totals none, "totals", "SELECT * FROM tmp1", ["tmp1"]⟩,
        ⟨recent none, "tmp2", "SELECT * FROM \"orders\"", []⟩,
        ⟨totals none, "totals", "SELECT * FROM tmp2", ["tmp2"]⟩] := by
  simp only [report, totals, recent, orders, Node.definitions_relation, Place.query,
    Passage.definitions_setOperation, Passage.definitions_cte, Passage.definitions_table,
    Passage.definition?, Passage.parts_cte, List.flatMap_singleton, Passage.references_cte,
    Passage.references_table]
  exact ⟨rfl, rfl⟩

def sqlOfNamed : String :=
  "WITH \n  recent AS (SELECT * FROM \"orders\"), \n  totals AS (SELECT * FROM recent)" ++
    "\nSELECT * FROM totals UNION SELECT * FROM totals"

def sqlOfUnnamed : String :=
  "WITH \n  tmp1 AS (SELECT * FROM \"orders\"), \n  totals AS (SELECT * FROM tmp2), " ++
    "\n  tmp2 AS (SELECT * FROM \"orders\")\nSELECT * FROM totals UNION SELECT * FROM totals"

theorem compile_named : (report (some "recent")).compile {} settings = .ok sqlOfNamed := by
  decide +kernel

theorem compile_unnamed : (report none).compile {} settings = .ok sqlOfUnnamed := by
  decide +kernel

end Totals

open Totals in
theorem withClause_inOrder_of_named :
    (report (some "recent")).compile {} settings = .ok sqlOfNamed ∧
      InOrder (surviving ((report (some "recent")).definitions {} settings)) := by
  refine ⟨compile_named, (Node.withClause_inOrder_iff compile_named).2.mpr ?_⟩
  simp only [definitions_of_report.1, lasting_cons, not_lasting_nil]
  rintro before d lasting ⟨e, inside, same⟩ name referred
  rcases lasting with ⟨rfl, rfl, -⟩ | ⟨_, rfl, ⟨rfl, rfl, -⟩ | ⟨_, rfl, ⟨rfl, rfl, -⟩ |
    ⟨_, rfl, ⟨rfl, rfl, -⟩ | ⟨_, -, none⟩⟩⟩⟩
  · cases inside
  · cases List.mem_singleton.mp inside
    exact absurd same (by decide)
  · cases referred
  · cases List.mem_singleton.mp referred
    exact ⟨_, List.mem_cons_self, none, rfl⟩
  · exact none.elim

open Totals in
/-- The totals that are left need the second of the generated names, but they stand where the first
totals stood. -/
theorem withClause_not_inOrder_of_unnamed :
    (report none).compile {} settings = .ok sqlOfUnnamed ∧
      ¬ InOrder (surviving ((report none).definitions {} settings)) := by
  refine ⟨compile_unnamed, ?_⟩
  rw [definitions_of_report.2]
  intro inOrder
  obtain ⟨e, first, params, defined⟩ :=
    inOrder [_] _ [_] rfl "tmp2" (List.mem_singleton.mpr rfl)
  cases List.mem_singleton.mp first
  exact absurd (eq_of_definitionHead defined (by decide)) (by decide)

/-! Bodies that are lost. -/

/-- A text of a relation as the body of a definition, with names numbered from anywhere. -/
def Relation.WrittenAs (store : Store) (settings : Settings) (r : Relation) (text : String) :
    Prop :=
  ∃ depth inJoin draft, (((settings.context.placed false inJoin).query r fun ctx =>
    r.render (settings.links store depth) ctx).outcome draft).1 = .ok text

theorem Definition.exists_lasting {ds : List Definition} {d : Definition} (listed : d ∈ ds) :
    ∃ before e, Lasting ds before e ∧ e.head = d.head ∧ (d = e ∨ d ∈ before) := by
  have kept : d.head ∈ (surviving ds).map head := by
    rw [heads_surviving, List.mem_eraseDups]
    exact List.mem_map_of_mem listed
  obtain ⟨e, inside, same⟩ := List.mem_map.mp kept
  obtain ⟨before, after, rfl, last⟩ := mem_surviving.mp inside
  refine ⟨before, e, ⟨after, rfl, last⟩, same, ?_⟩
  rcases List.mem_append.mp listed with first | later
  · exact .inr first
  · rcases List.mem_cons.mp later with rfl | later
    · exact .inl rfl
    · exact absurd same.symm (last d later)

namespace Node

variable {store : Store} {settings : Settings} {node : Node}

theorem base_of_root {p : Passage} (root : p ∈ node.roots store settings) :
    p.ctx.base = settings.context.base := by
  have listed := Passage.place_mem_of_inTurn root
  unfold rootPlaces at listed
  split at listed
  · cases listed
  · rw [List.mem_singleton.mp listed]
    rfl
  · rw [List.mem_singleton.mp listed]
    exact Context.base_querying _ _
  · rw [List.mem_singleton.mp listed]

theorem writtenAs_of_definition {d : Definition} (made : d ∈ node.definitions store settings) :
    d.cte.source.WrittenAs store settings d.body := by
  obtain ⟨p, root, inside⟩ := List.mem_flatMap.mp made
  obtain ⟨q, visited, defined⟩ := List.mem_filterMap.mp inside
  obtain ⟨-, body, -⟩ := Passage.eq_of_definition? defined
  have base : q.ctx.base = settings.context.base :=
    (Passage.base_of_visited visited).trans (base_of_root root)
  have defining : q.ctx.defining = settings.context.placed false q.ctx.inJoin := by
    obtain ⟨dialect, autocommit⟩ := Prod.mk.inj base
    simp only [Context.defining, Context.placed, dialect, autocommit]
    rfl
  refine ⟨q.depth, q.ctx.inJoin, q.draft, ?_⟩
  rw [← defining]
  exact body

/-- The WITH clause of a query has a body for each CTE that was written if and only if, whenever a
definition took the place of others, its body is a text of what their CTEs stand for too. -/
theorem withClause_bodies_iff {sql : String} (compiled : node.compile store settings = .ok sql) :
    let written := node.definitions store settings
    let kept := (surviving written).map entry
    (∃ body, sql = Draft.withClause { definitions := kept } body) ∧
      ((∀ d ∈ written, ∃ body, (d.head, body) ∈ kept ∧
          d.cte.source.WrittenAs store settings body) ↔
        ∀ before d, Lasting written before d → ∀ e ∈ before, e.head = d.head →
          e.cte.source.WrittenAs store settings d.body) := by
  intro written kept
  refine ⟨compile_eq_surviving compiled, ?_, ?_⟩
  · rintro found before d ⟨after, split, last⟩ e earlier same
    have listed : e ∈ written := split ▸ List.mem_append_left _ earlier
    obtain ⟨body, inside, rendered⟩ := found e listed
    obtain ⟨f, left, entry⟩ := List.mem_map.mp inside
    obtain ⟨sameHead, rfl⟩ := Prod.mk.inj entry
    have isLast : d ∈ surviving written := mem_surviving.mpr ⟨before, after, split, last⟩
    -- there is one entry under each head
    have unique : f = d :=
      List.inj_on_of_nodup_map (nodup_heads_surviving written) left isLast (sameHead.trans same)
    rwa [unique] at rendered
  · intro replaced d listed
    obtain ⟨before, e, lasting, same, isLast | earlier⟩ := exists_lasting listed
    · subst isLast
      exact ⟨d.body, List.mem_map_of_mem (mem_surviving.mpr ⟨before, lasting⟩),
        writtenAs_of_definition listed⟩
    · refine ⟨e.body, ?_, replaced before e lasting d earlier same.symm⟩
      rw [← same]
      exact List.mem_map_of_mem (mem_surviving.mpr ⟨before, lasting⟩)

end Node

open Totals in
theorem withClause_bodies_of_unnamed :
    (report none).compile {} settings = .ok sqlOfUnnamed ∧
      ∀ d ∈ (report none).definitions {} settings, ∃ body,
        (d.head, body) ∈ (surviving ((report none).definitions {} settings)).map entry ∧
          d.cte.source.WrittenAs {} settings body := by
  refine ⟨compile_unnamed, (Node.withClause_bodies_iff compile_unnamed).2.mpr ?_⟩
  simp only [definitions_of_report.2, lasting_cons, not_lasting_nil]
  rintro before d lasting e inside same
  rcases lasting with ⟨rfl, rfl, -⟩ | ⟨_, rfl, ⟨rfl, rfl, -⟩ | ⟨_, rfl, ⟨rfl, rfl, -⟩ |
    ⟨_, rfl, ⟨rfl, rfl, -⟩ | ⟨_, -, none⟩⟩⟩⟩
  · cases inside
  · cases List.mem_singleton.mp inside
    exact absurd same (by decide)
  · rcases List.mem_pair.mp inside with rfl | rfl
    · exact absurd same (by decide)
    · exact absurd same (by decide)
  · simp only [List.mem_cons, List.not_mem_nil, or_false] at inside
    rcases inside with rfl | rfl | rfl
    · exact absurd same (by decide)
    · exact ⟨0, false, { generated := 1 }, rfl⟩
    · exact absurd same (by decide)
  · exact none.elim

/-! Totals of orders and totals of refunds under one name. -/

namespace Totals

def refunds : Relation :=
  .table ⟨⟨4⟩, .refunds, none⟩

def mixed : Node :=
  .relation (.setOperation ⟨⟨7⟩, .union, .cte ⟨⟨5⟩, orders, some "totals", none⟩,
    .cte ⟨⟨6⟩, refunds, some "totals", none⟩⟩)

theorem definitions_of_mixed :
    mixed.definitions {} settings =
      [⟨⟨⟨5⟩, orders, some "totals", none⟩, "totals", "SELECT * FROM \"orders\"", []⟩,
        ⟨⟨⟨6⟩, refunds, some "totals", none⟩, "totals", "SELECT * FROM \"refunds\"", []⟩] := by
  simp only [mixed, orders, refunds, Node.definitions_relation, Place.query,
    Passage.definitions_setOperation, Passage.definitions_cte, Passage.definitions_table,
    Passage.definition?, Passage.parts_cte, List.flatMap_singleton, Passage.references_table]
  rfl

end Totals

open Totals in
theorem withClause_body_lost :
    mixed.compile {} settings = .ok ("WITH \n  totals AS (SELECT * FROM \"refunds\")" ++
        "\nSELECT * FROM totals UNION SELECT * FROM totals") ∧
      ¬ ∀ d ∈ mixed.definitions {} settings, ∃ body,
        (d.head, body) ∈ (surviving (mixed.definitions {} settings)).map entry ∧
          d.cte.source.WrittenAs {} settings body := by
  refine ⟨by decide +kernel, ?_⟩
  rw [definitions_of_mixed]
  intro found
  obtain ⟨body, inside, depth, inJoin, draft, rendered⟩ := found _ List.mem_cons_self
  cases List.mem_singleton.mp inside
  cases inJoin with
  | false =>
      have same : "SELECT * FROM \"orders\"" = "SELECT * FROM \"refunds\"" := Except.ok.inj rendered
      exact absurd same (by decide)
  | true =>
      have same : "(SELECT * FROM \"orders\")" = "SELECT * FROM \"refunds\"" :=
        Except.ok.inj rendered
      exact absurd same (by decide)

end SqlQuery
