import SqlQuery.Proofs.Render.WithClause

/-!
The names that a query generates: those of derived tables, of the sources of joins, and of CTEs that
have no name of their own. They are read off the texts here; no two places get the same one.
-/

namespace SqlQuery

namespace Draft

theorem generatedName_injective : Function.Injective generatedName := by
  intro m n same
  have digits : Nat.toDigits 10 m = Nat.toDigits 10 n := by
    rw [← Nat.toList_repr, ← Nat.toList_repr]
    exact congrArg String.toList ((String.append_right_inj "tmp").mp same)
  rw [← Nat.ofDigitChars_ten_toDigits (n := m), digits, Nat.ofDigitChars_ten_toDigits]

theorem blank_not_mem_generatedName (n : Nat) : ' ' ∉ (generatedName n).toList := by
  intro inside
  rw [generatedName, String.toList_append, List.mem_append] at inside
  rcases inside with first | digit
  · exact absurd first (by decide)
  · rw [show toString n = n.repr from rfl, Nat.toList_repr] at digit
    exact absurd (Nat.isDigit_of_mem_toDigits (by decide) (by decide) digit) (by decide)

/-- The names that are generated after the first so many, until there are so many. -/
def names (first last : Nat) : List String :=
  (List.range' (first + 1) (last - first)).map generatedName

theorem names_append {first middle last : Nat} (left : first ≤ middle) (right : middle ≤ last) :
    names first middle ++ names middle last = names first last := by
  have next : middle + 1 = first + 1 + 1 * (middle - first) := by omega
  have total : last - first = middle - first + (last - middle) := by omega
  rw [names, names, names, ← List.map_append, next, List.range'_append, total]

theorem nodup_names (first last : Nat) : (names first last).Nodup :=
  (List.nodup_range' 1).map generatedName_injective

/-- The given names, in any order, are the ones that are generated from one draft to another. -/
structure Generates (before after : Draft) (given : List String) : Prop where
  grows : before.generated ≤ after.generated
  perm : given.Perm (names before.generated after.generated)

namespace Generates

variable {first second third : Draft} {given others : List String}

theorem none (same : second.generated = first.generated) : Generates first second [] := by
  refine ⟨Nat.le_of_eq same.symm, ?_⟩
  simp [names, same]

theorem next (more : second.generated = first.generated + 1) :
    Generates first second [generatedName (first.generated + 1)] := by
  refine ⟨by omega, ?_⟩
  simp [names, more]

theorem trans (left : Generates first second given) (right : Generates second third others) :
    Generates first third (given ++ others) := by
  refine ⟨Nat.le_trans left.grows right.grows, ?_⟩
  rw [← names_append left.grows right.grows]
  exact left.perm.append right.perm

theorem reorder (generates : Generates first second given) (same : others.Perm given) :
    Generates first second others :=
  ⟨generates.grows, same.trans generates.perm⟩

end Generates

end Draft

open Draft

/-- What stands after the last blank of a text. -/
def lastWord (text : String) : String :=
  .ofList (text.toList.reverse.takeWhile (· ≠ ' ')).reverse

theorem lastWord_of_enclosed (sql : String) (n : Nat) :
    lastWord ("(" ++ sql ++ ") " ++ generatedName n) = generatedName n := by
  have letters : ∀ c ∈ (generatedName n).toList.reverse, (decide (c ≠ ' ')) = true := by
    intro c inside
    apply decide_eq_true
    rintro rfl
    exact blank_not_mem_generatedName n (List.mem_reverse.mp inside)
  have before : ("(" ++ sql ++ ") ").toList.reverse =
      ' ' :: ')' :: ("(" ++ sql).toList.reverse := by
    rw [String.toList_append, List.reverse_append]
    rfl
  rw [lastWord, String.toList_append, List.reverse_append, List.takeWhile_append_of_pos letters,
    before, List.takeWhile_cons_of_neg (by decide), List.append_nil, List.reverse_reverse,
    String.ofList_toList]

/-! The names that a passage introduces. -/

/-- The alias of a source of a join, if it was generated. -/
def generatedAlias? : Relation × ScopedAlias → Option String
  | (.aliased _, _) => none
  | (_, a) => some a.name

namespace Passage

variable (store : Store) (settings : Settings)

/-- The aliases that a join gives to those of its sources that have none. -/
def joinNames (p : Passage) : List String :=
  match p.node with
  | .relation (.join j) => (j.sources.zip p.opening.1).filterMap generatedAlias?
  | _ => []

/-- The text of the derived table that a passage makes in a FROM clause. -/
def derived? (p : Passage) : Option String :=
  if p.ctx.inSelect then
    match p.node with
    | .relation r => if r.isQuery then (p.outcome store settings).1.toOption else none
    | .statement (.explain r) =>
        if r.isQuery then none
        else
          ((p.ctx.query r fun ctx => r.render (settings.links store p.depth) ctx).outcome
            p.draft).1.toOption
    | _ => none
  else
    none

/-- The text of a CTE that has no name of its own. -/
def unnamed? (p : Passage) : Option String :=
  match p.node with
  | .relation (.cte c) => if c.name.isNone then (p.outcome store settings).1.toOption else none
  | _ => none

/-- A derived table ends with its name, and a CTE shows as its name alone. -/
def introduced (p : Passage) : List String :=
  p.joinNames ++ (((p.derived? store settings).map lastWord).toList ++
    (p.unnamed? store settings).toList)

variable {store settings} {p : Passage}

/-! Each step generates the names that it introduces, and no others. -/

theorem joinAliases_generates {sources : List Relation} {draft final : Draft}
    {aliases : List ScopedAlias}
    (named : (joinAliases sources).outcome draft = (.ok aliases, final)) :
    Generates draft final ((sources.zip aliases).filterMap generatedAlias?) := by
  fun_induction joinAliases sources generalizing draft aliases with
  | case1 =>
      cases named
      exact .none rfl
  | case2 rest a ih =>
      obtain ⟨others, middle, later, same⟩ := ExceptT.outcome_bind_eq_ok.mp named
      cases same
      exact ih later
  | case3 r rest given ih =>
      obtain ⟨name, middle, generated, after⟩ := ExceptT.outcome_bind_eq_ok.mp named
      cases generated
      obtain ⟨own, middle, drawn, after⟩ := ExceptT.outcome_bind_eq_ok.mp after
      cases drawn
      obtain ⟨others, middle, later, same⟩ := ExceptT.outcome_bind_eq_ok.mp after
      cases same
      have first : ∀ name owners, generatedAlias? (r, ⟨name, owners⟩) = some name := by
        intro name owners
        cases r with
        | aliased a => exact absurd rfl (given a)
        | _ => rfl
      rw [List.zip_cons_cons, List.filterMap_cons_some (first _ _)]
      exact (Generates.next rfl).trans (ih later)

theorem opening_generates (p : Passage) : Generates p.draft p.opening.2 p.joinNames := by
  by_cases isJoin : ∃ j, p.node = .relation (.join j)
  · obtain ⟨j, isJoin⟩ := isJoin
    rw [joinNames, isJoin]
    exact joinAliases_generates (opening_of_join isJoin)
  · have opened : p.opening = ([], p.draft) := by
      unfold opening
      split
      · exact absurd ⟨_, ‹_›⟩ isJoin
      · rfl
    have unnamed : p.joinNames = [] := by
      unfold joinNames
      split
      · exact absurd ⟨_, ‹_›⟩ isJoin
      · rfl
    rw [opened, unnamed]
    exact .none rfl

theorem enclose_generates {ctx : Context} {sql text : String} {draft final : Draft}
    (enclosed : (ctx.enclose sql).outcome draft = (.ok text, final)) :
    Generates draft final ((if ctx.inSelect then some text else none).map lastWord).toList := by
  unfold Context.enclose at enclosed
  split at enclosed
  · rename_i inSelect
    cases enclosed
    rw [if_pos inSelect, Option.map_some, Option.toList_some, lastWord_of_enclosed]
    exact .next rfl
  · rename_i outside
    rw [if_neg outside]
    split at enclosed
    · cases enclosed
      exact .none rfl
    · cases enclosed
      exact .none rfl

theorem closing_generates_of_query {r : Relation} {text : String} {final : Draft}
    (isRelation : p.node = .relation r) (query : r.isQuery = true)
    (written : p.outcome store settings = (.ok text, final)) :
    Generates (p.middle store settings) final
      (((p.derived? store settings).map lastWord).toList ++
        (p.unnamed? store settings).toList) := by
  obtain ⟨sql, closed⟩ := (parts_written written).2
  have derived : p.derived? store settings = if p.ctx.inSelect then some text else none := by
    simp only [derived?, isRelation, query, written, Except.toOption, if_true]
  have named : p.unnamed? store settings = none := by
    cases r with
    | cte c => cases query
    | _ => simp only [unnamed?, isRelation]
  have enclosed : p.closing sql = p.ctx.enclose sql := by
    cases r with
    | join j => simp only [Place.closing, isRelation]
    | grouping g => simp only [Place.closing, isRelation]
    | setOperation o => simp only [Place.closing, isRelation]
    | select s => simp only [Place.closing, isRelation]
    | _ => cases query
  rw [enclosed] at closed
  rw [derived, named, Option.toList_none, List.append_nil]
  exact enclose_generates closed

theorem closing_generates_of_cte {c : Cte} {text : String} {final : Draft}
    (isCte : p.node = .relation (.cte c)) (written : p.outcome store settings = (.ok text, final)) :
    Generates (p.middle store settings) final
      (((p.derived? store settings).map lastWord).toList ++
        (p.unnamed? store settings).toList) := by
  obtain ⟨body, closed⟩ := (parts_written written).2
  have derived : p.derived? store settings = none := by
    simp [derived?, isCte, Relation.isQuery]
  cases given : c.name with
  | some name =>
      simp only [Place.closing, isCte, given] at closed
      cases closed
      simp only [derived, unnamed?, isCte, given]
      exact .none rfl
  | none =>
      simp only [Place.closing, isCte, given] at closed
      cases closed
      simp only [derived, unnamed?, isCte, given, written]
      exact .next rfl

theorem closing_generates_of_explain {r : Relation} {text : String} {final : Draft}
    (isExplain : p.node = .statement (.explain r))
    (written : p.outcome store settings = (.ok text, final)) :
    Generates (p.middle store settings) final
      (((p.derived? store settings).map lastWord).toList ++
        (p.unnamed? store settings).toList) := by
  obtain ⟨⟨depth, ctx, node⟩, draft⟩ := p
  cases isExplain
  obtain ⟨queried, after, query, same⟩ := ExceptT.outcome_bind_eq_ok.mp written
  cases same
  have derived : derived? store settings ⟨⟨depth, ctx, .statement (.explain r)⟩, draft⟩ =
      if ctx.inSelect then (if r.isQuery then none else some queried) else none := by
    simp only [derived?, query, Except.toOption]
  rw [Context.query_eq] at query
  obtain ⟨inner, reached, rendered, closed⟩ := ExceptT.outcome_bind_eq_ok.mp query
  have writes : Rendering.Writes store settings [Place.query depth ctx r]
      (r.render (settings.links store depth) (ctx.querying r)) := .relation r
  obtain ⟨-, rfl⟩ := writes draft inner reached rendered
  rw [derived]
  cases isQuery : r.isQuery with
  | true =>
      rw [Context.queried, if_pos isQuery] at closed
      cases closed
      simp only [if_true, ite_self]
      exact .none rfl
  | false =>
      rw [Context.queried, if_neg (by simp [isQuery])] at closed
      exact (enclose_generates closed).reorder (.of_eq (List.append_nil _))

theorem closing_generates_of_plain {text : String} {final : Draft}
    (plain : ∀ sql, p.closing sql = pure sql) (notDerived : p.derived? store settings = none)
    (notCte : p.unnamed? store settings = none)
    (written : p.outcome store settings = (.ok text, final)) :
    Generates (p.middle store settings) final
      (((p.derived? store settings).map lastWord).toList ++
        (p.unnamed? store settings).toList) := by
  obtain ⟨sql, closed⟩ := (parts_written written).2
  rw [plain] at closed
  cases closed
  rw [notDerived, notCte]
  exact .none rfl

theorem closing_generates {text : String} {final : Draft}
    (written : p.outcome store settings = (.ok text, final)) :
    Generates (p.middle store settings) final
      (((p.derived? store settings).map lastWord).toList ++
        (p.unnamed? store settings).toList) := by
  obtain ⟨⟨depth, ctx, node⟩, draft⟩ := p
  cases node with
  | expr e => exact closing_generates_of_plain (fun _ => rfl) (by simp [derived?]) rfl written
  | statement s =>
      cases s with
      | explain r => exact closing_generates_of_explain rfl written
      | _ => exact closing_generates_of_plain (fun _ => rfl) (by simp [derived?]) rfl written
  | relation r =>
      cases r with
      | cte c => exact closing_generates_of_cte rfl written
      | join j => exact closing_generates_of_query rfl rfl written
      | grouping g => exact closing_generates_of_query rfl rfl written
      | setOperation o => exact closing_generates_of_query rfl rfl written
      | select s => exact closing_generates_of_query rfl rfl written
      | _ =>
          exact closing_generates_of_plain (fun _ => rfl) (by simp [derived?, Relation.isQuery]) rfl
            written

/-! A passage with those inside it. -/

theorem visited_written (written : p.Written store settings) :
    ∀ q ∈ p.visited store settings, q.Written store settings := by
  induction p using Passage.induction store settings with
  | step p ih =>
      obtain ⟨text, outcome⟩ := (written_iff p).mp written
      obtain ⟨parts, -⟩ := parts_written outcome
      intro q inside
      rw [visited_eq, List.mem_append, List.mem_flatMap] at inside
      rcases inside with ⟨part, listed, inside⟩ | own
      · exact ih part listed (parts part listed) q inside
      · rwa [List.mem_singleton.mp own]

theorem afterAll_generates {places : List Place} {draft : Draft} {given : Passage → List String}
    (each : ∀ p ∈ inTurn store settings places draft,
      Generates p.draft (p.after store settings) (given p)) :
    Generates draft (afterAll store settings places draft)
      ((inTurn store settings places draft).flatMap given) := by
  induction places generalizing draft with
  | nil => exact .none rfl
  | cons place rest ih =>
      obtain ⟨first, others⟩ := List.forall_mem_cons.mp each
      rw [afterAll, inTurn, List.flatMap_cons]
      exact first.trans (ih others)

/-- A passage that comes to a text has generated the names that the passages inside it introduce. -/
theorem after_generates (written : p.Written store settings) :
    Generates p.draft (p.after store settings)
      ((p.visited store settings).flatMap (introduced store settings)) := by
  induction p using Passage.induction store settings with
  | step p ih =>
      obtain ⟨text, outcome⟩ := (written_iff p).mp written
      obtain ⟨parts, -⟩ := parts_written outcome
      have inner : Generates p.opening.2 (p.middle store settings) _ :=
        afterAll_generates fun q part => ih q part (parts q part)
      -- a join names its sources before its parts are written, and the passages have it after them
      refine ((opening_generates p).trans (inner.trans (closing_generates outcome))).reorder ?_
      rw [visited_eq, List.flatMap_append, List.flatMap_singleton, List.flatMap_assoc, introduced]
      exact List.perm_append_comm_assoc _ _ _

end Passage

/-! Whole queries. -/

namespace Node

variable (store : Store) (settings : Settings)

def passages (node : Node) : List Passage :=
  (node.roots store settings).flatMap (Passage.visited store settings)

/-- The names that the passages of a query introduce, each as often as it is introduced. -/
def introduced (node : Node) : List String :=
  (node.passages store settings).flatMap (Passage.introduced store settings)

variable {store settings} {node : Node}

theorem introduced_perm {body : String} {draft : Draft}
    (rendered : (node.renderRoot (settings.links store (settings.depth store))
      settings.context).outcome {} = (.ok body, draft)) :
    (node.introduced store settings).Perm (names 0 draft.generated) := by
  obtain ⟨written, rfl⟩ := roots_written rendered
  have generates :=
    Passage.afterAll_generates fun p root => Passage.after_generates (written p root)
  rw [introduced, passages, List.flatMap_assoc]
  exact generates.perm

theorem exists_entry_of_cte {body : String} {draft : Draft}
    (rendered : (node.renderRoot (settings.links store (settings.depth store))
      settings.context).outcome {} = (.ok body, draft)) {p : Passage} {c : Cte}
    (passed : p ∈ node.passages store settings) (isCte : p.node = .relation (.cte c)) :
    ∃ name text, (p.outcome store settings).1 = .ok name ∧
      (definitionHead c.params name, text) ∈ draft.definitions := by
  obtain ⟨root, isRoot, inside⟩ := List.mem_flatMap.mp passed
  have written := Passage.visited_written ((roots_written rendered).1 root isRoot) p inside
  obtain ⟨name, outcome⟩ := (Passage.written_iff p).mp written
  obtain ⟨d, defined, rfl, -⟩ := Passage.definition?_of_cte isCte outcome
  have same : Node.relation (.cte c) = .relation (.cte d.cte) :=
    isCte.symm.trans (Passage.eq_of_definition? defined).1
  cases same
  have made : d ∈ node.definitions store settings :=
    List.mem_flatMap.mpr ⟨root, isRoot, List.mem_filterMap.mpr ⟨p, inside, defined⟩⟩
  have listed : d.head ∈ draft.definitions.map Prod.fst := by
    rw [heads_of_rendered rendered, Definition.heads_surviving, List.mem_eraseDups]
    exact List.mem_map_of_mem made
  obtain ⟨⟨key, text⟩, inside, rfl⟩ := List.mem_map.mp listed
  exact ⟨d.name, text, by rw [outcome], inside⟩

/-- What a query gathers while it is written out is consistent: its WITH clause has one entry under
each head, each CTE that is written has an entry there under its name, and each name that was
generated is introduced at one place. -/
theorem draft_consistent {sql : String} (compiled : node.compile store settings = .ok sql) :
    ∃ body draft,
      (node.renderRoot (settings.links store (settings.depth store)) settings.context).outcome {} =
        (.ok body, draft) ∧
      sql = draft.withClause body ∧
      (draft.definitions.map Prod.fst).Nodup ∧
      (∀ p ∈ node.passages store settings, ∀ c, p.node = .relation (.cte c) →
        ∃ name text, (p.outcome store settings).1 = .ok name ∧
          (definitionHead c.params name, text) ∈ draft.definitions) ∧
      (node.introduced store settings).Perm (names 0 draft.generated) ∧
      (node.introduced store settings).Nodup := by
  obtain ⟨body, draft, rendered, rfl⟩ := compileWithin_eq_ok.mp compiled
  refine ⟨body, draft, rendered, rfl, ?_, ?_, introduced_perm rendered, ?_⟩
  · rw [heads_of_rendered rendered]
    exact Definition.nodup_heads_surviving _
  · intro p passed c isCte
    exact exists_entry_of_cte rendered passed isCte
  · exact (introduced_perm rendered).nodup_iff.mpr (nodup_names _ _)

end Node

/-! Payments of orders, with the orders as a CTE that has no name. -/

namespace Payments

def orders : Relation :=
  .cte ⟨⟨1⟩, .table ⟨⟨0⟩, .orders, none⟩, none, none⟩

def payments : Relation :=
  .table ⟨⟨2⟩, ⟨["payments"], by decide, by decide⟩, none⟩

def report : Node :=
  .relation (.select ⟨⟨4⟩, some (.join ⟨⟨3⟩, [orders, payments], .inner, [], none⟩), none,
    [], [], [], [], none, false⟩)

def settings : Settings := { dialect := .duckDB }

def sql : String :=
  "WITH \n  tmp3 AS ((SELECT * FROM \"orders\"))" ++
    "\nSELECT * FROM (SELECT * FROM tmp3 \"tmp1\" JOIN \"payments\" \"tmp2\") tmp4"

theorem compile_report : report.compile {} settings = .ok sql := by
  decide +kernel

theorem introduced_report :
    report.introduced {} settings = ["tmp3", "tmp1", "tmp2", "tmp4"] := by
  simp only [Node.introduced, Node.passages, Node.roots, Node.rootPlaces, report, orders, payments,
    Place.query, Passage.inTurn, Passage.visited_eq, Passage.parts, Passage.places, Place.parts,
    Relation.places, Place.exprs, Place.relations, Option.getD_none, Option.toList_some,
    List.map_cons, List.map_nil, List.nil_append, List.append_nil, List.flatMap_cons,
    List.flatMap_nil]
  rfl

end Payments

open Payments in
theorem draft_consistent_of_payments :
    report.compile {} settings = .ok sql ∧
      report.introduced {} settings = ["tmp3", "tmp1", "tmp2", "tmp4"] ∧
      ∃ body draft, sql = Draft.withClause draft body ∧
        (draft.definitions.map Prod.fst).Nodup ∧
        ["tmp3", "tmp1", "tmp2", "tmp4"].Perm (names 0 draft.generated) := by
  obtain ⟨body, draft, -, same, distinct, -, generated, -⟩ := Node.draft_consistent compile_report
  rw [introduced_report] at generated
  exact ⟨compile_report, introduced_report, body, draft, same, distinct, generated⟩

end SqlQuery
