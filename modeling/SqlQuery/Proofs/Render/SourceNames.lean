import SqlQuery.Proofs.Render.GeneratedNames
import SqlQuery.Proofs.Render.JoinScope

/-!
The names of the sources of a join in its text: the aliases that the sources have by themselves, and
generated ones for the others. Main statement: exactly when two of them are the same, although the
sources' own aliases are all different.
-/

namespace SqlQuery

open Draft

def Relation.ownAlias? : Relation → Option String
  | .aliased a => some a.name
  | _ => none

/-- The names of sources, where so many names were generated before. -/
def sourceNames (generated : Nat) : List Relation → List String
  | [] => []
  | r :: rest =>
      match r.ownAlias? with
      | some name => name :: sourceNames generated rest
      | none => generatedName (generated + 1) :: sourceNames (generated + 1) rest

namespace JoinOf

/-- The aliases that sources of a join have by themselves. -/
def ownAliases (j : Join) : List String :=
  j.sources.filterMap Relation.ownAlias?

/-- The number of sources that get a generated alias. -/
def unaliased (j : Join) : Nat :=
  j.sources.countP (·.ownAlias?.isNone)

end JoinOf

theorem length_sourceNames (generated : Nat) (sources : List Relation) :
    (sourceNames generated sources).length = sources.length := by
  induction sources generalizing generated with
  | nil => rfl
  | cons r rest ih =>
      rw [sourceNames]
      split
      · rw [List.length_cons, ih, List.length_cons]
      · rw [List.length_cons, ih, List.length_cons]

/-! Own and generated names. -/

theorem Draft.names_succ (first count : Nat) :
    names first (first + (count + 1)) =
      generatedName (first + 1) :: names (first + 1) (first + 1 + count) := by
  have next : names first (first + 1) = [generatedName (first + 1)] := by
    simp [names]
  rw [Nat.add_comm count, ← Nat.add_assoc, ← names_append (Nat.le_succ first) (by omega), next]
  rfl

theorem Draft.mem_names {first last : Nat} {name : String} :
    name ∈ names first last ↔ ∃ n, first < n ∧ n ≤ last ∧ generatedName n = name := by
  rw [names, List.mem_map]
  apply exists_congr
  intro n
  rw [List.mem_range'_1, ← and_assoc]
  apply and_congr_left'
  omega

theorem sourceNames_perm (generated : Nat) (sources : List Relation) :
    (sourceNames generated sources).Perm
      (sources.filterMap Relation.ownAlias? ++
        names generated (generated + sources.countP (·.ownAlias?.isNone))) := by
  induction sources generalizing generated with
  | nil => simp [sourceNames, names]
  | cons r rest ih =>
      rw [sourceNames]
      cases own : r.ownAlias? with
      | some name =>
          rw [List.filterMap_cons_some own, List.countP_cons_of_neg (by simp [own])]
          exact (ih generated).cons name
      | none =>
          rw [List.filterMap_cons_none own, List.countP_cons_of_pos (by simp [own]), names_succ]
          exact ((ih (generated + 1)).cons _).trans List.perm_middle.symm

theorem sourceNames_nodup_iff {j : Join} (distinct : j.ownAliases.Nodup) (generated : Nat) :
    (sourceNames generated j.sources).Nodup ↔
      ∀ n, generated < n → n ≤ generated + j.unaliased → generatedName n ∉ j.ownAliases := by
  rw [(sourceNames_perm generated j.sources).nodup_iff, List.nodup_append']
  constructor
  · rintro ⟨-, -, apart⟩ n after before clash
    exact apart clash (mem_names.mpr ⟨n, after, before, rfl⟩)
  · intro apart
    refine ⟨distinct, nodup_names _ _, ?_⟩
    intro name own made
    obtain ⟨n, after, before, rfl⟩ := mem_names.mp made
    exact apart n after before own

/-! Aliases in scope have the names of the sources. -/

section Aliases

variable {r : Relation} {rest : List Relation} {sources : List Relation}
  {aliases : List ScopedAlias} {draft final : Draft}

theorem joinAliases_cons_eq_ok :
    (joinAliases (r :: rest)).outcome draft = (.ok aliases, final) ↔
      ∃ a others middle, (sourceAlias r).outcome draft = (.ok a, middle) ∧
        (joinAliases rest).outcome middle = (.ok others, final) ∧ aliases = a :: others := by
  rw [joinAliases_cons]
  constructor
  · intro named
    obtain ⟨a, middle, first, named⟩ := ExceptT.outcome_bind_eq_ok.mp named
    obtain ⟨others, last, later, result⟩ := ExceptT.outcome_bind_eq_ok.mp named
    cases result
    exact ⟨a, others, middle, first, later, rfl⟩
  · rintro ⟨a, others, middle, first, later, rfl⟩
    rw [ExceptT.outcome_bind_of_ok first, ExceptT.outcome_bind_of_ok later]
    rfl

theorem name_of_sourceAlias {a : ScopedAlias}
    (named : (sourceAlias r).outcome draft = (.ok a, final)) :
    (r.ownAlias? = some a.name ∧ final.generated = draft.generated) ∨
      (r.ownAlias? = none ∧ a.name = generatedName (draft.generated + 1) ∧
        final.generated = draft.generated + 1) := by
  cases r with
  | aliased own =>
      cases named
      exact .inl ⟨rfl, rfl⟩
  | _ =>
      cases named
      exact .inr ⟨rfl, rfl, rfl⟩

theorem names_of_joinAliases (named : (joinAliases sources).outcome draft = (.ok aliases, final)) :
    aliases.map ScopedAlias.name = sourceNames draft.generated sources := by
  induction sources generalizing draft aliases with
  | nil =>
      cases named
      rfl
  | cons r rest ih =>
      obtain ⟨a, others, middle, first, later, rfl⟩ := joinAliases_cons_eq_ok.mp named
      rw [List.map_cons, ih later, sourceNames]
      rcases name_of_sourceAlias first with ⟨own, same⟩ | ⟨bare, name, more⟩
      · rw [own, same]
      · rw [bare, name, more]

end Aliases

/-! The sources in the text of a join. -/

section Items

variable {links : Links} {ctx : Context}

/-- A relation with its name after FROM. -/
def Context.named (ctx : Context) (body name : String) : String :=
  body ++ " " ++ ctx.quote name

theorem aliasedSource_named {r : Relation} {a : ScopedAlias} {inner : Context}
    {before middle draft final : Draft} {text : String} (dialect : inner.dialect = ctx.dialect)
    (named : (sourceAlias r).outcome before = (.ok a, middle))
    (rendered : (r.render links inner).outcome draft = (.ok text, final)) :
    ∃ body, aliasedSource ctx (r, a) text = ctx.named body a.name := by
  cases r with
  | aliased own =>
      cases named
      obtain ⟨id, source, name⟩ := own
      obtain ⟨body, _, _, result⟩ := ExceptT.outcome_bind_eq_ok.mp rendered
      cases result
      refine ⟨body, ?_⟩
      simp only [aliasedSource, Context.named, Context.quote, dialect]
  | _ => exact ⟨text, rfl⟩

/-- Each source stands in the text of a join with its name after it, also if the name is part of its
own text. -/
theorem aliasedSources_named {sources : List Relation} {aliases : List ScopedAlias}
    {inner : Context} {before named draft final : Draft} {texts : List String}
    (dialect : inner.dialect = ctx.dialect)
    (opened : (joinAliases sources).outcome before = (.ok aliases, named))
    (rendered : (Relation.renderAll links inner sources).outcome draft = (.ok texts, final)) :
    ∃ bodies : List String, bodies.length = sources.length ∧
      (sources.zip aliases).zipWith (aliasedSource ctx) texts =
        bodies.zipWith ctx.named (aliases.map ScopedAlias.name) := by
  induction sources generalizing aliases texts before draft with
  | nil => exact ⟨[], rfl, rfl⟩
  | cons r rest ih =>
      obtain ⟨a, others, middle, first, later, rfl⟩ := joinAliases_cons_eq_ok.mp opened
      obtain ⟨text, reached, own, after⟩ := ExceptT.outcome_bind_eq_ok.mp rendered
      obtain ⟨following, last, rest, result⟩ := ExceptT.outcome_bind_eq_ok.mp after
      cases result
      obtain ⟨body, item⟩ := aliasedSource_named dialect first own
      obtain ⟨bodies, length, items⟩ := ih later rest
      refine ⟨body :: bodies, by rw [List.length_cons, List.length_cons, length], ?_⟩
      rw [List.zip_cons_cons, List.zipWith_cons_cons, item, items]
      rfl

end Items

namespace Passage

variable {store : Store} {settings : Settings} {p : Passage} {j : Join}

variable (store settings) in
/-- The text of a join has its sources after FROM, one with each of the names. -/
def ShowsSources (p : Passage) (j : Join) (names : List String) : Prop :=
  ∃ (text columns rest : String) (bodies : List String) (draft : Draft),
    p.outcome store settings = (.ok text, p.after store settings) ∧
      bodies.length = j.sources.length ∧ names.length = j.sources.length ∧
      (p.ctx.enclose ("SELECT " ++ columns ++ " FROM " ++
        j.kind.separator.intercalate (bodies.zipWith p.ctx.named names) ++ rest)).outcome draft =
          (.ok text, p.after store settings)

theorem showsSources (isJoin : p.node = .relation (.join j)) (written : p.Written store settings) :
    p.ShowsSources store settings j (sourceNames p.draft.generated j.sources) := by
  obtain ⟨text, outcome⟩ := (written_iff p).mp written
  obtain ⟨⟨depth, ctx, node⟩, draft⟩ := p
  cases isJoin
  have opened := opening_of_join (p := ⟨⟨depth, ctx, .relation (.join j)⟩, draft⟩) rfl
  have rendered : ((Relation.join j).render (settings.links store depth) ctx).outcome draft =
    (.ok text, _) := outcome
  rw [Relation.render_join, ExceptT.outcome_bind_of_ok opened] at rendered
  obtain ⟨texts, _, sources, rendered⟩ := ExceptT.outcome_bind_eq_ok.mp rendered
  obtain ⟨on, _, _, rendered⟩ := ExceptT.outcome_bind_eq_ok.mp rendered
  obtain ⟨columns, middle, _, enclosed⟩ := ExceptT.outcome_bind_eq_ok.mp rendered
  have dialect : ∀ aliases, (ctx.joined aliases).dialect = ctx.dialect := fun _ => rfl
  obtain ⟨bodies, each, items⟩ := aliasedSources_named (dialect _) opened sources
  rw [joinText, items, names_of_joinAliases opened] at enclosed
  exact ⟨text, columns, _, bodies, middle, outcome, each, length_sourceNames _ _, enclosed⟩

end Passage

/-- The sources of a join that is written out have different names, where their own aliases are
different, exactly if none of these is among the names that the join generates: as many as it has
sources without an alias, from the first one that was not generated before. -/
theorem Node.sourceNames_distinct_iff {node : Node} {store : Store} {settings : Settings}
    {sql : String} (compiled : node.compile store settings = .ok sql) {p : Passage}
    (passed : p ∈ node.passages store settings) {j : Join} (isJoin : p.node = .relation (.join j))
    (distinct : j.ownAliases.Nodup) :
    let names := sourceNames p.draft.generated j.sources
    p.ShowsSources store settings j names ∧
      (names.Nodup ↔ ∀ n, p.draft.generated < n → n ≤ p.draft.generated + j.unaliased →
        generatedName n ∉ j.ownAliases) := by
  obtain ⟨body, draft, rendered, rfl⟩ := compileWithin_eq_ok.mp compiled
  obtain ⟨root, isRoot, inside⟩ := List.mem_flatMap.mp passed
  have written := Passage.visited_written ((roots_written rendered).1 root isRoot) p inside
  exact ⟨Passage.showsSources isJoin written, sourceNames_nodup_iff distinct _⟩

/-! Orders under an alias that looks like a generated name. -/

namespace LookalikeAlias

def orders : Relation := .aliased ⟨⟨1⟩, .table ⟨⟨0⟩, .orders, none⟩, "tmp1"⟩

def refunds : Relation := .table ⟨⟨2⟩, .refunds, none⟩

def pairs : Join := ⟨⟨3⟩, [orders, refunds], .inner, [], none⟩

def settings : Settings := { dialect := .duckDB }

def alone : Passage where
  depth := 0
  ctx := settings.context
  node := .relation (.join pairs)
  draft := {}

/-- The pairs behind another source, for which a name was generated before. -/
def report : Node :=
  .relation (.join ⟨⟨4⟩, [refunds, .join pairs], .inner, [], none⟩)

def nested : Passage where
  depth := 0
  ctx := settings.context.joined [⟨"tmp1", [⟨2⟩]⟩, ⟨"tmp2", [⟨3⟩]⟩]
  node := .relation (.join pairs)
  draft := { generated := 2 }

theorem nested_mem : nested ∈ report.passages {} settings := by
  have part : nested ∈ (Passage.mk ⟨0, settings.context, report⟩ {}).parts {} settings :=
    List.mem_cons_of_mem _ List.mem_cons_self
  refine List.mem_flatMap.mpr ⟨⟨⟨0, settings.context, report⟩, {}⟩, List.mem_singleton_self _, ?_⟩
  rw [Passage.visited_eq, List.mem_append, List.mem_flatMap]
  refine .inl ⟨nested, part, ?_⟩
  rw [Passage.visited_eq]
  exact List.mem_append_right _ (List.mem_singleton_self nested)

end LookalikeAlias

open LookalikeAlias in
theorem sourceNames_distinct_of_nested :
    report.compile {} settings = .ok ("SELECT * FROM \"refunds\" \"tmp1\" JOIN " ++
        "(SELECT * FROM \"orders\" \"tmp1\" JOIN \"refunds\" \"tmp3\") \"tmp2\"") ∧
      nested ∈ report.passages {} settings ∧ pairs.ownAliases = ["tmp1"] ∧
      sourceNames nested.draft.generated pairs.sources = ["tmp1", "tmp3"] ∧
      (sourceNames nested.draft.generated pairs.sources).Nodup := by
  have compiled : report.compile {} settings = .ok ("SELECT * FROM \"refunds\" \"tmp1\" JOIN " ++
      "(SELECT * FROM \"orders\" \"tmp1\" JOIN \"refunds\" \"tmp3\") \"tmp2\"") := rfl
  have later : ∀ n, 2 < n → n ≤ 3 → generatedName n ∉ pairs.ownAliases := by
    intro n after before
    obtain rfl : n = 3 := by omega
    decide
  have distinct := Node.sourceNames_distinct_iff compiled nested_mem rfl (List.nodup_singleton _)
  exact ⟨compiled, nested_mem, rfl, rfl, distinct.2.mpr later⟩

open LookalikeAlias in
/-- The first name that is generated is the alias of the orders. -/
theorem sourceNames_clash_of_lookalike :
    (Node.relation (.join pairs)).compile {} settings =
        .ok "SELECT * FROM \"orders\" \"tmp1\" JOIN \"refunds\" \"tmp1\"" ∧
      alone ∈ (Node.relation (.join pairs)).passages {} settings ∧ pairs.ownAliases.Nodup ∧
      ¬ (sourceNames alone.draft.generated pairs.sources).Nodup := by
  refine ⟨rfl, ?_, by decide, by decide⟩
  refine List.mem_flatMap.mpr ⟨alone, List.mem_singleton_self _, ?_⟩
  rw [Passage.visited_eq]
  exact List.mem_append_right _ (List.mem_singleton_self alone)

end SqlQuery
