import SqlQuery.Proofs.Builder.Transparency
import SqlQuery.Proofs.Query.Joined
import SqlQuery.Proofs.Render.SourceNames

/-!
The columns of the sources of a join. A column is found by the schemas of the sources, and it is
written by the identity of its source. Main statement: the two meet; a column of a source, also one
that a placeholder was bound to, is written after the name of this source.
-/

theorem List.filter_eq_singleton_of_getElem? {α : Type} {p : α → Bool} {as : List α} {i : Nat}
    {a : α} (here : as[i]? = some a) (holds : p a = true)
    (others : ∀ k b, k ≠ i → as[k]? = some b → p b = false) : as.filter p = [a] := by
  induction as generalizing i with
  | nil => simp at here
  | cons b as ih =>
      cases i with
      | zero =>
          obtain rfl : b = a := by simpa using here
          have rest : as.filter p = [] := by
            rw [List.filter_eq_nil_iff]
            intro c listed
            obtain ⟨k, found⟩ := List.mem_iff_getElem?.mp listed
            rw [others (k + 1) c (Nat.succ_ne_zero k) found]
            exact Bool.false_ne_true
          rw [List.filter_cons_of_pos holds, rest]
      | succ i =>
          have first : ¬ p b = true := by
            rw [others 0 b (Nat.succ_ne_zero i).symm rfl]
            exact Bool.false_ne_true
          rw [List.filter_cons_of_neg first]
          apply ih here
          intro k c differ found
          exact others (k + 1) c (fun same => differ (Nat.succ.inj same)) found

theorem List.lookup_zip_of_getElem? {α β : Type} [BEq α] [LawfulBEq α] {keys : List α}
    {values : List β} {i : Nat} {key : α} {value : β} (distinct : keys.Nodup)
    (here : keys[i]? = some key) (there : values[i]? = some value) :
    (keys.zip values).lookup key = some value := by
  induction keys generalizing values i with
  | nil => simp at here
  | cons first keys ih =>
      obtain ⟨other, distinct⟩ := List.nodup_cons.mp distinct
      cases values with
      | nil => simp at there
      | cons given values =>
          rw [List.zip_cons_cons, List.lookup_cons]
          cases i with
          | zero =>
              obtain rfl : first = key := by simpa using here
              obtain rfl : given = value := by simpa using there
              rw [beq_self_eq_true]
          | succ i =>
              have listed : key ∈ keys := List.mem_of_getElem? here
              have differ : (key == first) = false := by
                rw [beq_eq_false_iff_ne]
                rintro rfl
                exact other listed
              rw [differ]
              exact ih distinct here there

namespace SqlQuery

/-! Expressions with other leaves. -/

mutual

/-- Puts other expressions in the place of columns and placeholders, outside embedded queries. -/
def Expr.mapLeaves (f : Expr → Expr) : Expr → Expr
  | .column c => f (.column c)
  | .placeholder id name => f (.placeholder id name)
  | .aliased e name => .aliased (e.mapLeaves f) name
  | .concat items separator => .concat (Expr.mapLeavesOfAll f items) separator
  | .count none distinct => .count none distinct
  | .count (some e) distinct => .count (some (e.mapLeaves f)) distinct
  | .call function arguments => .call function (Expr.mapLeavesOfAll f arguments)
  | .case ⟨branches, none⟩ => .case ⟨Expr.mapLeavesOfBranches f branches, none⟩
  | .case ⟨branches, some e⟩ => .case ⟨Expr.mapLeavesOfBranches f branches, some (e.mapLeaves f)⟩
  | .isDistinctFrom left right => .isDistinctFrom (left.mapLeaves f) (right.mapLeaves f)
  | .binary operator arguments => .binary operator (Expr.mapLeavesOfAll f arguments)
  | .negate e => .negate (e.mapLeaves f)
  | .isIn e list => .isIn (e.mapLeaves f) (Expr.mapLeavesOfAll f list)
  | .cast e type => .cast (e.mapLeaves f) type
  | .value v => .value v
  | .code sql => .code sql
  | .random => .random
  | .currentTimestamp => .currentTimestamp
  | .param name => .param name
  | .subquery r => .subquery r

def Expr.mapLeavesOfAll (f : Expr → Expr) : List Expr → List Expr
  | [] => []
  | e :: rest => e.mapLeaves f :: Expr.mapLeavesOfAll f rest

def Expr.mapLeavesOfBranches (f : Expr → Expr) : List (BranchOf Expr) → List (BranchOf Expr)
  | [] => []
  | ⟨condition, result⟩ :: rest =>
      ⟨condition.mapLeaves f, result.mapLeaves f⟩ :: Expr.mapLeavesOfBranches f rest

end

section Leaves

variable {f : Expr → Expr} {links : Links} {ctx : Context}

theorem Expr.mapLeavesOfAll_eq_map (es : List Expr) :
    Expr.mapLeavesOfAll f es = es.map (Expr.mapLeaves f) := by
  induction es with
  | nil => rfl
  | cons e rest ih => rw [Expr.mapLeavesOfAll, ih, List.map_cons]

theorem Expr.renderAll_mapLeaves {es : List Expr}
    (each : ∀ e ∈ es, (e.mapLeaves f).render links ctx = e.render links ctx) :
    Expr.renderAll links ctx (Expr.mapLeavesOfAll f es) = Expr.renderAll links ctx es := by
  induction es with
  | nil => rfl
  | cons e rest ih =>
      obtain ⟨here, later⟩ := List.forall_mem_cons.mp each
      simp only [Expr.mapLeavesOfAll, Expr.renderAll]
      rw [here, ih later]

theorem Expr.renderBranches_mapLeaves {branches : List (BranchOf Expr)}
    (each : ∀ b ∈ branches, (b.condition.mapLeaves f).render links ctx =
      b.condition.render links ctx ∧ (b.result.mapLeaves f).render links ctx =
        b.result.render links ctx) :
    Expr.renderBranches links ctx (Expr.mapLeavesOfBranches f branches) =
      Expr.renderBranches links ctx branches := by
  induction branches with
  | nil => rfl
  | cons b rest ih =>
      obtain ⟨⟨condition, result⟩, later⟩ := List.forall_mem_cons.mp each
      simp only [Expr.mapLeavesOfBranches, Expr.renderBranches]
      rw [condition, result, ih later]

theorem Expr.isEmpty_mapLeavesOfBranches (branches : List (BranchOf Expr)) :
    (Expr.mapLeavesOfBranches f branches).isEmpty = branches.isEmpty := by
  cases branches <;> rfl

/-- Leaves that are written alike make no difference to the text. -/
theorem Expr.render_mapLeaves (same : ∀ leaf, (f leaf).render links ctx = leaf.render links ctx)
    (e : Expr) : (e.mapLeaves f).render links ctx = e.render links ctx := by
  have induction : QueryInduction
      (fun e => (e.mapLeaves f).render links ctx = e.render links ctx) fun _ => True := {
    value := fun v => rfl
    code := fun sql => rfl
    column := fun c => same _
    placeholder := fun id name => same _
    aliased := fun e name inner => by simp only [Expr.mapLeaves, Expr.render, inner]
    concat := fun items separator each => by
      simp only [Expr.mapLeaves, Expr.render, Expr.renderAll_mapLeaves each]
    countAll := fun distinct => rfl
    count := fun e distinct inner => by simp only [Expr.mapLeaves, Expr.render, inner]
    call := fun function arguments each => by
      simp only [Expr.mapLeaves, Expr.render, Expr.renderAll_mapLeaves each]
    case := fun branches otherwise each default => by
      cases otherwise with
      | none =>
          simp only [Expr.mapLeaves, Expr.render_case, Expr.renderBranches_mapLeaves each,
            Expr.isEmpty_mapLeavesOfBranches]
      | some e =>
          simp only [Expr.mapLeaves, Expr.render_case, Expr.renderBranches_mapLeaves each,
            Expr.isEmpty_mapLeavesOfBranches, Expr.renderElse, default e rfl]
    isDistinctFrom := fun left right first second => by
      simp only [Expr.mapLeaves, Expr.render, first, second]
    binary := fun operator arguments each => by
      simp only [Expr.mapLeaves, Expr.render, Expr.renderAll_mapLeaves each]
    negate := fun e inner => by simp only [Expr.mapLeaves, Expr.render, inner]
    isIn := fun e list inner each => by
      simp only [Expr.mapLeaves, Expr.render, inner, Expr.renderAll_mapLeaves each]
    cast := fun e type inner => by simp only [Expr.mapLeaves, Expr.render, inner]
    random := rfl
    currentTimestamp := rfl
    param := fun name => rfl
    subquery := fun r _ => rfl
    table := fun _ => trivial
    tableAlias := fun _ _ _ _ => trivial
    join := fun _ _ _ _ _ _ _ _ => trivial
    grouping := fun _ _ _ _ _ _ _ _ _ _ => trivial
    setOperation := fun _ _ _ _ _ _ => trivial
    select := fun _ _ => trivial
    cte := fun _ _ _ _ _ => trivial
    tableParam := fun _ => trivial }
  exact induction.expr e

theorem Expr.renderAll_map_mapLeaves
    (same : ∀ leaf, (f leaf).render links ctx = leaf.render links ctx) (es : List Expr) :
    Expr.renderAll links ctx (es.map (Expr.mapLeaves f)) = Expr.renderAll links ctx es := by
  rw [← Expr.mapLeavesOfAll_eq_map]
  exact Expr.renderAll_mapLeaves fun e _ => Expr.render_mapLeaves same e

end Leaves

/-- The column that a leaf shows: its own, or the one that a placeholder is bound to. -/
def Expr.shownColumn? (store : Store) : Expr → Option Column
  | .column c => some c
  | .placeholder id _ =>
      match store.binding? id with
      | some (.column c) => some c
      | _ => none
  | _ => none

/-- There is a link to follow from a placeholder, if any is bound. -/
def Store.Followed (store : Store) (depth : Nat) : Prop :=
  store.bindings = [] ∨ 0 < depth

theorem Expr.render_of_shownColumn {store : Store} {settings : Settings} {depth : Nat}
    {e : Expr} {c : Column} (followed : store.Followed depth)
    (shown : e.shownColumn? store = some c) (ctx : Context) :
    e.render (settings.links store depth) ctx = ctx.column c.source.id c.name := by
  cases e with
  | column d =>
      cases shown
      rw [Expr.render]
  | placeholder id name =>
      have bound : store.binding? id = some (.column c) := by
        rw [Expr.shownColumn?] at shown
        split at shown
        · next d bound => rwa [Option.some.inj shown] at bound
        · cases shown
      cases depth with
      | zero =>
          have none : store.bindings = [] := followed.resolve_right (Nat.lt_irrefl 0)
          rw [Store.binding?, none] at bound
          cases bound
      | succ depth =>
          simp only [Expr.render, Settings.links, Store.resolve, bound]
          change Expr.render _ _ _ = _
          rw [Expr.render]
  | _ => cases shown

/-! The source of a column. -/

namespace JoinOf

/-- Several sources that can be told apart: no two are the same relation, and none is what another
one is an alias of. -/
structure Separate (j : Join) : Prop where
  several : 2 ≤ j.sources.length
  distinct : (j.sources.map Relation.id).Nodup
  apart : ∀ (i k : Nat) (r : Relation) (a : Alias), i ≠ k → j.sources[i]? = some r →
    j.sources[k]? = some (.aliased a) → a.source.id ≠ r.id

variable {j : Join}

/-- The name of the source with the given identity, after so many generated names. -/
def nameOf (j : Join) (generated : Nat) (owner : RelationId) : Option String :=
  ((j.sources.map Relation.id).zip (sourceNames generated j.sources)).lookup owner

theorem nameOf_eq_some {generated : Nat} {owner : RelationId} {name : String}
    (named : j.nameOf generated owner = some name) :
    ∃ (i : Nat) (r : Relation), j.sources[i]? = some r ∧ r.id = owner ∧
      (sourceNames generated j.sources)[i]? = some name := by
  obtain ⟨front, back, split, -⟩ := List.lookup_eq_some_iff.mp named
  have listed : (owner, name) ∈ (j.sources.map Relation.id).zip (sourceNames generated j.sources) :=
    split ▸ List.mem_append_right _ List.mem_cons_self
  obtain ⟨i, here⟩ := List.mem_iff_getElem?.mp listed
  obtain ⟨identity, spelled⟩ := List.getElem?_zip_eq_some.mp here
  rw [List.getElem?_map, Option.map_eq_some_iff] at identity
  obtain ⟨r, source, same⟩ := identity
  exact ⟨i, r, source, same, spelled⟩

namespace Separate

variable (separate : j.Separate) {i : Nat} {r : Relation} {name : String}
  (source : j.sources[i]? = some r)
include separate source

theorem nameOf_eq {generated : Nat} (named : (sourceNames generated j.sources)[i]? = some name) :
    j.nameOf generated r.id = some name := by
  apply List.lookup_zip_of_getElem? separate.distinct _ named
  rw [List.getElem?_map, source]
  rfl

theorem not_owned {k : Nat} {other : Relation} (differ : k ≠ i)
    (located : j.sources[k]? = some other) : r.id ∉ other.owned := by
  have ids : other.id ≠ r.id := by
    intro same
    have inRange : k < (j.sources.map Relation.id).length := by
      rw [List.length_map]
      exact (List.getElem?_eq_some_iff.mp located).1
    apply differ
    apply (List.getElem?_inj inRange separate.distinct).mp
    rw [List.getElem?_map, List.getElem?_map, located, source, Option.map_some, Option.map_some,
      same]
  cases other with
  | aliased a =>
      have under := separate.apart i k r a differ.symm source located
      intro owned
      rcases List.mem_cons.mp owned with same | owned
      · exact ids same.symm
      · exact under (List.mem_singleton.mp owned).symm
  | _ =>
      intro owned
      exact ids (List.mem_singleton.mp owned).symm

variable {draft opened : Draft} {aliases : List ScopedAlias}
  (opening : (joinAliases j.sources).outcome draft = (.ok aliases, opened))
include opening

/-- Of all aliases of the sources, only the one of the source itself covers its columns. -/
theorem owning_eq (named : (sourceNames draft.generated j.sources)[i]? = some name) :
    ∃ owners, ScopedAlias.owning aliases r.id = [⟨name, owners⟩] := by
  have names := names_of_joinAliases opening
  have scopes : aliases.map ScopedAlias.owners = j.sources.map Relation.owned :=
    scope_of_joinAliases opening
  have covers : ∀ (k : Nat) (a : ScopedAlias), aliases[k]? = some a →
      ∃ other, j.sources[k]? = some other ∧ a.owners = other.owned := by
    intro k a here
    have same := congrArg (fun owners => owners[k]?) scopes
    simp only [List.getElem?_map, here, Option.map_some] at same
    obtain ⟨other, located, owned⟩ := Option.map_eq_some_iff.mp same.symm
    exact ⟨other, located, owned.symm⟩
  rw [← names, List.getElem?_map, Option.map_eq_some_iff] at named
  obtain ⟨a, here, rfl⟩ := named
  refine ⟨a.owners, List.filter_eq_singleton_of_getElem? here ?_ ?_⟩
  · obtain ⟨other, located, owned⟩ := covers i a here
    obtain rfl : r = other := Option.some.inj (source.symm.trans located)
    rw [owned, List.contains_iff_mem]
    cases r <;> exact List.mem_cons_self
  · intro k b differ there
    obtain ⟨other, located, owned⟩ := covers k b there
    rw [owned, ← Bool.not_eq_true, List.contains_iff_mem]
    exact separate.not_owned source differ located

theorem column_eq {ctx : Context} (alone : ctx.aliases = [])
    (named : (sourceNames draft.generated j.sources)[i]? = some name) (column : String) :
    (ctx.joined aliases).column r.id column =
      .ok (ctx.quote name ++ "." ++ ctx.quote column) := by
  obtain ⟨owners, owning⟩ := separate.owning_eq source opening named
  have scope : (ctx.joined aliases).aliases = aliases := by
    change ctx.aliases ++ aliases = aliases
    rw [alone, List.nil_append]
  have several : ¬ aliases.length ≤ 1 := by
    have lengths := congrArg List.length (names_of_joinAliases opening)
    rw [List.length_map, length_sourceNames] at lengths
    have := separate.several
    omega
  rw [Context.column_eq_columnAfter, scope, ScopedAlias.candidates, if_neg several, owning]
  rfl

end Separate

end JoinOf

/-! A join with its columns written out. -/

theorem Settings.followed_depth (store : Store) (settings : Settings) :
    store.Followed (settings.depth store) := by
  cases bindings : store.bindings with
  | nil => exact .inl bindings
  | cons first rest =>
      right
      apply Nat.mul_pos
      · simp [values, bindings]
      · exact Nat.pow_pos (Nat.succ_pos 2)

namespace JoinOf

/-- Puts the text of a column of a source in the place of a leaf that shows it. -/
def qualify (j : Join) (store : Store) (ctx : Context) (generated : Nat) (leaf : Expr) : Expr :=
  match leaf.shownColumn? store with
  | none => leaf
  | some c =>
      match j.nameOf generated c.source.id with
      | none => leaf
      | some name => .code (ctx.quote name ++ "." ++ ctx.quote c.name)

def qualified (j : Join) (store : Store) (ctx : Context) (generated : Nat) : Join :=
  let written := Expr.mapLeaves (j.qualify store ctx generated)
  { j with on := j.on.map written, columns := j.columns.map (List.map written) }

namespace Separate

variable {j : Join} (separate : j.Separate) {store : Store} {settings : Settings} {depth : Nat}
  {ctx : Context} {draft opened : Draft} {aliases : List ScopedAlias}
  (followed : store.Followed depth) (alone : ctx.aliases = [])
include separate followed alone

section Opened

variable (opening : (joinAliases j.sources).outcome draft = (.ok aliases, opened))
include opening

theorem render_shown {i : Nat} {r : Relation} {name : String} (source : j.sources[i]? = some r)
    (named : (sourceNames draft.generated j.sources)[i]? = some name) {e : Expr} {c : Column}
    (shown : e.shownColumn? store = some c) (owner : c.source.id = r.id) :
    e.render (settings.links store depth) (ctx.joined aliases) =
      pure (ctx.quote name ++ "." ++ ctx.quote c.name) := by
  rw [Expr.render_of_shownColumn followed shown, owner,
    separate.column_eq source opening alone named]
  rfl

theorem render_qualify (leaf : Expr) :
    (j.qualify store ctx draft.generated leaf).render (settings.links store depth)
        (ctx.joined aliases) =
      leaf.render (settings.links store depth) (ctx.joined aliases) := by
  cases shown : leaf.shownColumn? store with
  | none => simp only [qualify, shown]
  | some c =>
      cases named : j.nameOf draft.generated c.source.id with
      | none => simp only [qualify, shown, named]
      | some name =>
          obtain ⟨i, r, source, owner, position⟩ := nameOf_eq_some named
          rw [separate.render_shown followed alone opening source position shown owner.symm]
          simp only [qualify, shown, named, Expr.render]

end Opened

theorem render_qualified (draft : Draft) :
    ((Relation.join (j.qualified store ctx draft.generated)).render (settings.links store depth)
        ctx).outcome draft =
      ((Relation.join j).render (settings.links store depth) ctx).outcome draft := by
  obtain ⟨aliases, _, opening⟩ := Passage.joinAliases_named j.sources draft
  have leaves : ∀ leaf, (j.qualify store ctx draft.generated leaf).render
      (settings.links store depth) (ctx.joined aliases) = _ :=
    separate.render_qualify followed alone opening
  have joined : ∀ columns : Option (List Expr),
      Expr.renderJoined (settings.links store depth) (ctx.joined aliases)
          (columns.map (List.map (Expr.mapLeaves (j.qualify store ctx draft.generated)))) =
        Expr.renderJoined (settings.links store depth) (ctx.joined aliases) columns := by
    intro columns
    cases columns with
    | none => rfl
    | some es =>
        simp only [Option.map_some, Expr.renderJoined]
        rw [Expr.renderAll_map_mapLeaves leaves]
  rw [Relation.render_join, Relation.render_join]
  change (joinAliases j.sources >>= _ : Rendering String).outcome draft = _
  rw [ExceptT.outcome_bind_of_ok opening, ExceptT.outcome_bind_of_ok opening]
  simp only [qualified, Expr.renderAll_map_mapLeaves leaves, joined]

end Separate

/-! Placeholders that a call binds. -/

variable {j : Join} {store after : Store}

/-- The placeholders of expressions show columns that the join finds in its sources. -/
def Binds (j : Join) (store after : Store) (es : List Expr) : Prop :=
  ∀ e ∈ es, ∀ id name, Expr.placeholder id name ∈ e.walk →
    ∃ c, (Relation.join j).column store name = .ok c ∧ c.source ∈ j.sources ∧
      (Expr.placeholder id name).shownColumn? after = some c

theorem binds_of_resolve {es : List Expr} (all : j.columns = none)
    (resolved : (Build.resolve (.join j) es).outcome store = (.ok (), after)) :
    j.Binds store after es := by
  obtain ⟨new, resolves, rfl⟩ := Build.resolve_eq_ok.mp resolved
  intro e listed id name inside
  have target : (id, name) ∈ Expr.placeholders es := Expr.mem_placeholders.mpr ⟨e, listed, inside⟩
  have bindings : ({ store with bindings := store.bindings ++ new } : Store).bindings =
    store.bindings ++ new := rfl
  obtain ⟨c, found, bound⟩ := resolves.exists_column bindings target
  refine ⟨c, found, (finds_of_column all found).mem, ?_⟩
  rw [Expr.shownColumn?, bound]

theorem on_binds {predicates : Arguments} {joined : Join} (all : j.columns = none)
    (ran : (Build.on j predicates).outcome store = (.ok joined, after)) :
    joined.sources = j.sources ∧ joined.on = j.on ++ predicates.present ∧
      joined.columns = none ∧ j.Binds store after predicates.present := by
  rw [Build.on] at ran
  split at ran
  · next skipped =>
      cases ran
      rw [skipped, List.append_nil]
      exact ⟨rfl, rfl, all, fun e listed => absurd listed List.not_mem_nil⟩
  · obtain ⟨_, middle, resolved, made⟩ := ExceptT.outcome_bind_eq_ok.mp ran
    have binds := binds_of_resolve all resolved
    cases made
    exact ⟨rfl, rfl, all, binds⟩

theorem select_binds {columns : Arguments} {r : Relation} (all : j.columns = none)
    (ran : (Build.selectFromJoin j columns).outcome store = (.ok r, after)) :
    ∃ fixed : Join, r = .join fixed ∧ fixed.sources = j.sources ∧ fixed.on = j.on ∧
      fixed.columns = some columns.present ∧ j.Binds store after columns.present := by
  simp only [Build.selectFromJoin, all] at ran
  obtain ⟨_, middle, resolved, made⟩ := ExceptT.outcome_bind_eq_ok.mp ran
  have binds := binds_of_resolve all resolved
  cases made
  exact ⟨_, rfl, rfl, rfl, rfl, binds⟩

/-- Each column of a source, taken as it is or bound to a placeholder, is written after the name of
its source, and the whole join as if it held these texts. -/
def WritesColumns (j : Join) (store : Store) (settings : Settings) : Prop :=
  (∀ depth ctx draft, store.Followed depth → ctx.aliases = [] →
    let links := settings.links store depth
    ((Relation.join (j.qualified store ctx draft.generated)).render links ctx).outcome draft =
        ((Relation.join j).render links ctx).outcome draft ∧
      ∃ aliases opened, (joinAliases j.sources).outcome draft = (.ok aliases, opened) ∧
        aliases.map ScopedAlias.name = sourceNames draft.generated j.sources ∧
        ∀ (i : Nat) (r : Relation) (name : String), j.sources[i]? = some r →
          (sourceNames draft.generated j.sources)[i]? = some name →
            j.nameOf draft.generated r.id = some name ∧
              ∀ (e : Expr) (c : Column), e.shownColumn? store = some c → c.source.id = r.id →
                e.render links (ctx.joined aliases) =
                  pure (ctx.quote name ++ "." ++ ctx.quote c.name)) ∧
    (Node.relation (.join (j.qualified store settings.context 0))).compile store settings =
      (Node.relation (.join j)).compile store settings

theorem Separate.writesColumns (separate : j.Separate) (store : Store) (settings : Settings) :
    j.WritesColumns store settings := by
  constructor
  · intro depth ctx draft followed alone
    obtain ⟨aliases, _, opening⟩ := Passage.joinAliases_named j.sources draft
    refine ⟨separate.render_qualified followed alone draft, aliases, _, opening,
      names_of_joinAliases opening, ?_⟩
    intro i r name source named
    refine ⟨separate.nameOf_eq source named, ?_⟩
    intro e c shown owner
    exact separate.render_shown followed alone opening source named shown owner
  · rw [Node.compile, Node.compile, Node.compileWithin_eq, Node.compileWithin_eq]
    have same : ((Node.relation (.join (j.qualified store settings.context 0))).renderRoot
        (settings.links store (settings.depth store)) settings.context).outcome {} =
          ((Node.relation (.join j)).renderRoot (settings.links store (settings.depth store))
            settings.context).outcome {} :=
      separate.render_qualified (settings.followed_depth store) rfl {}
    rw [same]

end JoinOf

/-- In a join of sources that can be told apart, each column of a source is written after the name
of that source. While no columns of the join are selected, a name is found exactly if one source
alone lists it, or none does and one alone has no schema; the column is that source's, and so it is
where a call on the join binds a placeholder. -/
theorem JoinOf.columns_named_by_source {j : Join} (separate : j.Separate) (store : Store)
    (settings : Settings) :
    j.WritesColumns store settings ∧
      (j.columns = none →
        (∀ name,
          ((∃ c, (Relation.join j).column store name = .ok c) ↔
            (∀ r ∈ j.sources, ∃ schema, r.schema store = .ok schema) ∧
              ∃ r, j.Finds store name r) ∧
            ∀ c, (Relation.join j).column store name = .ok c → j.Finds store name c.source) ∧
          (∀ predicates joined after,
            (Build.on j predicates).outcome store = (.ok joined, after) →
              joined.sources = j.sources ∧ joined.on = j.on ++ predicates.present ∧
                joined.columns = none ∧ j.Binds store after predicates.present) ∧
          ∀ columns r after, (Build.selectFromJoin j columns).outcome store = (.ok r, after) →
            ∃ fixed : Join, r = .join fixed ∧ fixed.sources = j.sources ∧ fixed.on = j.on ∧
              fixed.columns = some columns.present ∧ j.Binds store after columns.present) := by
  refine ⟨separate.writesColumns store settings, fun all => ⟨?_, ?_, ?_⟩⟩
  · intro name
    exact ⟨exists_column_iff all, fun c => finds_of_column all⟩
  · intro predicates joined after ran
    exact on_binds all ran
  · intro columns r after ran
    exact select_binds all ran

/-! Orders with refunds of which no schema is known. -/

namespace RefundedOrders

def orders : Relation :=
  .table ⟨⟨0⟩, .orders, some { columns := [("Id", .integer), ("Amount", .integer)] }⟩

def refunds : Relation := .aliased ⟨⟨2⟩, .table ⟨⟨1⟩, .refunds, none⟩, "r"⟩

def pairs : Join := ⟨⟨3⟩, [orders, refunds], .inner, [], none⟩

def store : Store := { relations := 4, placeholders := 2 }

def exceeds : Expr := .binary .gt [.placeholder ⟨0⟩ "amount", .column ⟨refunds, "Limit"⟩]

def covered : Expr := .binary .gt [.placeholder ⟨1⟩ "Reserve", .value (.int 0)]

def after : Store where
  relations := 5
  placeholders := 2
  bindings := [(⟨0⟩, .column ⟨orders, "Amount"⟩), (⟨1⟩, .column ⟨refunds, "Reserve"⟩)]

def matched : Join := { pairs with id := ⟨4⟩, on := [exceeds, covered] }

def settings : Settings := { dialect := .duckDB }

theorem separate {j : Join} (same : j.sources = [orders, refunds]) : j.Separate := by
  refine ⟨by rw [same]; decide, by rw [same]; decide, ?_⟩
  intro i k r a differ source aliased
  rw [same] at source aliased
  -- only the refunds are an alias, so that the other source is the orders
  rcases k with _ | _ | k
  · cases aliased
  · cases aliased
    rcases i with _ | _ | i
    · cases source
      decide
    · exact absurd rfl differ
    · cases source
  · cases aliased

end RefundedOrders

open RefundedOrders in
theorem columns_named_of_refunded :
    pairs.Separate ∧ matched.Separate ∧
      (Build.on pairs [some exceeds, some covered]).outcome store = (.ok matched, after) ∧
      pairs.Binds store after [exceeds, covered] ∧
      pairs.Finds store "amount" orders ∧ pairs.Finds store "Reserve" refunds ∧
      (Node.relation (.join matched)).compile after settings =
        .ok ("SELECT * FROM \"orders\" \"tmp1\" JOIN \"refunds\" \"r\" ON " ++
          "(\"tmp1\".\"Amount\" > \"r\".\"Limit\") AND (\"r\".\"Reserve\" > 0)") := by
  have apart : pairs.Separate := separate rfl
  have ran : (Build.on pairs [some exceeds, some covered]).outcome store =
    (.ok matched, after) := rfl
  obtain ⟨-, unselected⟩ := JoinOf.columns_named_by_source apart store settings
  obtain ⟨lookup, on, -⟩ := unselected rfl
  obtain ⟨⟨-, text⟩, -⟩ := JoinOf.columns_named_by_source (separate rfl : matched.Separate) after
    settings
  refine ⟨apart, separate rfl, ran, (on _ _ _ ran).2.2.2, (lookup "amount").2 _ rfl,
    (lookup "Reserve").2 ⟨refunds, "Reserve"⟩ rfl, ?_⟩
  rw [← text]
  rfl

end SqlQuery
