import SqlQuery.Proofs.Render.Passage

/-!
What a passage that comes to a text tells: all its parts have come to a text, one after the other,
and then the node has added what is its own.
-/

namespace SqlQuery

/-! Steps that write the nodes at some places and nothing else. -/

open Passage

/-- Whenever the step comes to a result, the nodes at the given places have come to their texts one
after the other, and the draft is the one that they leave. -/
def Rendering.Writes (store : Store) (settings : Settings) (places : List Place)
    (x : Rendering α) : Prop :=
  ∀ draft a final, x.outcome draft = (.ok a, final) →
    (∀ p ∈ inTurn store settings places draft, p.Written store settings) ∧
      final = afterAll store settings places draft

namespace Rendering.Writes

variable {store : Store} {settings : Settings} {depth : Nat} {ctx : Context}
  {places rest : List Place} {x : Rendering α}

theorem pure (a : α) : Writes store settings [] (Pure.pure a : Rendering α) := by
  intro draft b final outcome
  cases outcome
  exact ⟨List.forall_mem_nil _, rfl⟩

theorem throw (e : Error) :
    Writes store settings places (MonadExcept.throw e : Rendering α) := by
  intro draft a final outcome
  cases outcome

theorem lift (result : Except Error α) :
    Writes store settings [] (liftM result : Rendering α) := by
  intro draft a final outcome
  rw [ExceptT.outcome_lift] at outcome
  exact ⟨List.forall_mem_nil _, (Prod.mk.inj outcome).2.symm⟩

theorem bind {f : α → Rendering β} (first : Writes store settings places x)
    (second : ∀ a, Writes store settings rest (f a)) :
    Writes store settings (places ++ rest) (x >>= f) := by
  intro draft b final outcome
  obtain ⟨a, middle, started, finished⟩ := ExceptT.outcome_bind_eq_ok.mp outcome
  obtain ⟨firstWritten, rfl⟩ := first draft a middle started
  obtain ⟨secondWritten, rfl⟩ := second a _ b final finished
  rw [inTurn_append, afterAll_append]
  exact ⟨List.forall_mem_append.mpr ⟨firstWritten, secondWritten⟩, rfl⟩

theorem map {f : α → β} (writes : Writes store settings places x) :
    Writes store settings places (x >>= fun a => Pure.pure (f a)) := by
  rw [← List.append_nil places]
  exact writes.bind fun a => pure (f a)

theorem lift_after {f : α → Except Error β} (writes : Writes store settings places x) :
    Writes store settings places (x >>= fun a => liftM (f a)) := by
  rw [← List.append_nil places]
  exact writes.bind fun a => lift (f a)

theorem node (place : Place) :
    Writes store settings [place] (place.render store settings) := by
  intro draft text final outcome
  have written : (Passage.mk place draft).outcome store settings = (.ok text, final) := outcome
  refine ⟨List.forall_mem_singleton.mpr ⟨text, by rw [written]⟩, ?_⟩
  simp only [afterAll, Passage.after, written]

theorem expr (e : Expr) :
    Writes store settings [⟨depth, ctx, .expr e⟩] (e.render (settings.links store depth) ctx) :=
  node ⟨depth, ctx, .expr e⟩

theorem relation (r : Relation) :
    Writes store settings [⟨depth, ctx, .relation r⟩]
      (r.render (settings.links store depth) ctx) :=
  node ⟨depth, ctx, .relation r⟩

theorem exprs (es : List Expr) :
    Writes store settings (Place.exprs depth ctx es)
      (Expr.renderAll (settings.links store depth) ctx es) := by
  induction es with
  | nil => exact pure []
  | cons e rest ih => exact (expr e).bind fun text => ih.map

theorem relations (rs : List Relation) :
    Writes store settings (Place.relations depth ctx rs)
      (Relation.renderAll (settings.links store depth) ctx rs) := by
  induction rs with
  | nil => exact pure []
  | cons r rest ih => exact (relation r).bind fun text => ih.map

theorem branches (bs : List (BranchOf Expr)) :
    Writes store settings
      (Place.exprs depth ctx (bs.flatMap fun b => [b.condition, b.result]))
      (Expr.renderBranches (settings.links store depth) ctx bs) := by
  induction bs with
  | nil => exact pure ""
  | cons b rest ih => exact (expr b.condition).bind fun _ => (expr b.result).bind fun _ => ih.map

theorem otherwise (e : Option Expr) :
    Writes store settings (Place.exprs depth ctx e.toList)
      (Expr.renderElse (settings.links store depth) ctx e) := by
  cases e with
  | none => exact pure ""
  | some e => exact (expr e).map

theorem counted (e : Option Expr) :
    Writes store settings (Place.exprs depth ctx e.toList)
      (Expr.renderCounted (settings.links store depth) ctx e) := by
  cases e with
  | none => exact pure "*"
  | some e => exact expr e

theorem joined (columns : Option (List Expr)) :
    Writes store settings (Place.exprs depth ctx (columns.getD []))
      (Expr.renderJoined (settings.links store depth) ctx columns) := by
  cases columns with
  | none => exact pure "*"
  | some columns => exact (exprs columns).map

theorem selected (columns : Option (List Expr)) :
    Writes store settings (Place.exprs depth ctx (columns.getD []))
      (Expr.renderSelected (settings.links store depth) ctx columns) := by
  cases columns with
  | none => exact pure []
  | some columns => exact exprs columns

theorem source (table : Option Relation) :
    Writes store settings (Place.relations depth ctx table.toList)
      (Relation.renderFrom (settings.links store depth) ctx table) := by
  cases table with
  | none => exact pure _
  | some table => exact (relation table).map

theorem selectText {dialect : Dialect} {distinct : Bool} {limit : Option UInt64}
    {columns filters groupBy having orderBy : Rendering (List String)}
    {table : Rendering (Option String)} {cs ts fs gs hs os : List Place}
    (columnsWritten : Writes store settings cs columns)
    (tableWritten : Writes store settings ts table)
    (filtersWritten : Writes store settings fs filters)
    (groupByWritten : Writes store settings gs groupBy)
    (havingWritten : Writes store settings hs having)
    (orderByWritten : Writes store settings os orderBy) :
    Writes store settings (cs ++ (ts ++ (fs ++ (gs ++ (hs ++ os)))))
      (selectText dialect distinct limit columns table filters groupBy having orderBy) :=
  columnsWritten.bind fun _ => tableWritten.bind fun _ => filtersWritten.bind fun _ =>
    groupByWritten.bind fun _ => havingWritten.bind fun _ => orderByWritten.map

theorem enclose (outside : ctx.inSelect = false) (sql : String) :
    Writes store settings [] (ctx.enclose sql) := by
  rw [Context.enclose, outside]
  cases ctx.inJoin with
  | true => exact pure _
  | false => exact pure _

theorem queried (outside : ctx.inSelect = false) (r : Relation) (text : String) :
    Writes store settings [] (ctx.queried r text) := by
  unfold Context.queried
  split
  · exact pure text
  · exact enclose outside _

theorem query (outside : ctx.inSelect = false) (r : Relation) :
    Writes store settings [Place.query depth ctx r]
      (ctx.query r fun ctx => r.render (settings.links store depth) ctx) := by
  rw [Context.query_eq]
  exact (relation r).bind fun text => queried outside r text

end Rendering.Writes

/-! Expressions. -/

section Expressions

variable {store : Store} {settings : Settings} {depth : Nat} {ctx : Context}

open Rendering

theorem Settings.placeholder_writes (id : PlaceholderId) (name : String) :
    Writes store settings (Place.linked depth ctx ((store.resolve id name).map .expr))
      ((settings.links store depth).placeholder id name ctx) := by
  cases depth with
  | zero =>
      simp only [Settings.links]
      cases store.resolve id name with
      | error e => exact .throw e
      | ok e => exact .throw .unending
  | succ depth =>
      simp only [Settings.links]
      cases store.resolve id name with
      | error e => exact .throw e
      | ok e => exact .expr e

theorem Settings.param_writes (name : String) :
    Writes store settings (Place.linked depth ctx (settings.param name))
      ((settings.links store depth).param name ctx) := by
  cases depth with
  | zero =>
      simp only [Settings.links]
      cases settings.param name with
      | error e => exact .throw e
      | ok node => exact .throw .unending
  | succ depth =>
      simp only [Settings.links]
      cases settings.param name with
      | error e => exact .throw e
      | ok node => exact .node ⟨depth, ctx, node⟩

theorem Expr.render_writes (e : Expr) :
    Writes store settings (e.places store settings depth ctx)
      (e.render (settings.links store depth) ctx) := by
  cases e with
  | value v => exact .pure _
  | code sql => exact .pure sql
  | column c => exact .lift _
  | placeholder id name => exact Settings.placeholder_writes id name
  | aliased e name => exact (Writes.expr e).map
  | concat items separator => exact (Writes.exprs items).lift_after
  | count argument distinct =>
      rw [Expr.render_count]
      exact (Writes.counted argument).map
  | call function arguments => exact (Writes.exprs arguments).map
  | case c =>
      obtain ⟨branches, otherwise⟩ := c
      rw [Expr.render_case]
      split
      · exact .throw _
      · simp only [Expr.places, Expr.children, Place.exprs, List.map_append]
        exact (Writes.branches branches).bind fun _ => (Writes.otherwise otherwise).map
  | isDistinctFrom left right => exact (Writes.expr left).bind fun _ => (Writes.expr right).map
  | binary operator arguments => exact (Writes.exprs arguments).map
  | negate e => exact (Writes.expr e).map
  | isIn e list => exact (Writes.expr e).bind fun _ => (Writes.exprs list).map
  | cast e type => exact (Writes.expr e).map
  | random => exact .pure _
  | currentTimestamp => exact .pure _
  | param name => exact Settings.param_writes name
  | subquery r => exact (Writes.query rfl r).map

end Expressions

/-! Relations and statements. -/

/-- Whenever the step comes to a text, the nodes at the given places have come to theirs one after
the other, and then the node has added what is its own. -/
def Rendering.Closes (store : Store) (settings : Settings) (places : List Place)
    (closing : String → Rendering String) (x : Rendering String) : Prop :=
  ∀ draft text final, x.outcome draft = (.ok text, final) →
    (∀ p ∈ inTurn store settings places draft, p.Written store settings) ∧
      ∃ sql, (closing sql).outcome (afterAll store settings places draft) = (.ok text, final)

section Relations

variable {store : Store} {settings : Settings} {depth : Nat} {ctx : Context}

open Rendering

theorem Rendering.Closes.own (closing : String → Rendering String) (sql : String) :
    Closes store settings [] closing (closing sql) := by
  intro draft text final outcome
  exact ⟨List.forall_mem_nil _, sql, outcome⟩

theorem Rendering.Writes.closes {places rest : List Place} {closing : String → Rendering String}
    {x : Rendering α} {f : α → Rendering String} (writes : Writes store settings places x)
    (closes : ∀ a, Closes store settings rest closing (f a)) :
    Closes store settings (places ++ rest) closing (x >>= f) := by
  intro draft text final outcome
  obtain ⟨a, middle, written, closed⟩ := ExceptT.outcome_bind_eq_ok.mp outcome
  obtain ⟨firstWritten, rfl⟩ := writes draft a middle written
  obtain ⟨secondWritten, sql, added⟩ := closes a _ text final closed
  rw [inTurn_append, afterAll_append]
  exact ⟨List.forall_mem_append.mpr ⟨firstWritten, secondWritten⟩, sql, added⟩

theorem Rendering.Writes.closes_pure {places : List Place} {x : Rendering String}
    (writes : Writes store settings places x) :
    Closes store settings places (fun text => return text) x := by
  intro draft text final outcome
  obtain ⟨parts, rfl⟩ := writes draft text final outcome
  exact ⟨parts, text, rfl⟩

theorem GroupingOf.render_closes (g : Grouping) :
    Closes store settings (g.places depth ctx) ctx.enclose
      ((Relation.grouping g).render (settings.links store depth) ctx) := by
  obtain ⟨id, table, keys, values, having⟩ := g
  cases absorbed : GroupingOf.absorbed? ⟨id, table, keys, values, having⟩ with
  | some s =>
      obtain ⟨rfl, plain⟩ := GroupingOf.eq_of_absorbed absorbed
      rw [Relation.render_grouping_plain _ _ _ _ _ _ _ plain]
      have places : GroupingOf.places depth ctx ⟨id, .select s, keys, values, having⟩ =
          let inner := ctx.placed true ctx.inJoin
          ((Place.exprs depth inner keys ++ Place.exprs depth inner values) ++
            (Place.relations depth inner s.table.toList ++ (Place.exprs depth inner s.filters ++
              ([] ++ (Place.exprs depth inner having ++ Place.exprs depth inner s.orderBy))))) ++
            [] := by
        simp [GroupingOf.places, absorbed, GroupingOf.outputs]
      rw [places]
      -- the keys are named by their numbers in GROUP BY, where nothing is written again
      refine (Writes.selectText ?_ (.source s.table) (.exprs s.filters) (.pure _) (.exprs having)
        (.exprs s.orderBy)).closes fun sql => .own _ sql
      exact (Writes.exprs keys).bind fun _ => (Writes.exprs values).map
  | none =>
      rw [Relation.render_grouping_nested _ _ _ _ _ _ _ (GroupingOf.not_plain_of_absorbed absorbed)]
      have places : GroupingOf.places depth ctx ⟨id, table, keys, values, having⟩ =
          Place.exprs depth ctx keys ++ (Place.exprs depth ctx values ++
            ([⟨depth, ctx.placed true false, .relation table⟩] ++
              (Place.exprs depth ctx having ++ []))) := by
        simp [GroupingOf.places, absorbed, GroupingOf.outputs]
      rw [places]
      exact (Writes.exprs keys).closes fun _ => (Writes.exprs values).closes fun _ =>
        (Writes.relation table).closes fun _ => (Writes.exprs having).closes fun _ => .own _ _

theorem SelectOf.render_closes (s : Select) (aliases : List ScopedAlias) :
    Closes store settings ((Relation.select s).places settings depth ctx aliases) ctx.enclose
      ((Relation.select s).render (settings.links store depth) ctx) := by
  rw [Relation.render_select]
  have places : (Relation.select s).places settings depth ctx aliases =
      let inner := ctx.placed true ctx.inJoin
      (Place.exprs depth inner (s.columns.getD []) ++
        (Place.relations depth inner s.table.toList ++ (Place.exprs depth inner s.filters ++
          (Place.exprs depth inner s.groupBy ++ (Place.exprs depth inner s.having ++
            Place.exprs depth inner s.orderBy))))) ++ [] := by
    simp [Relation.places]
  rw [places]
  exact (Writes.selectText (.selected s.columns) (.source s.table) (.exprs s.filters)
    (.exprs s.groupBy) (.exprs s.having) (.exprs s.orderBy)).closes fun sql => .own _ sql

theorem SetOperationOf.render_closes (o : SetOperation) (aliases : List ScopedAlias) :
    Closes store settings ((Relation.setOperation o).places settings depth ctx aliases) ctx.enclose
      ((Relation.setOperation o).render (settings.links store depth) ctx) := by
  rw [Relation.render]
  exact (Writes.query rfl o.left).closes fun _ =>
    (Writes.query rfl o.right).closes fun _ => .own _ _

theorem CteOf.render_closes (c : Cte) (aliases : List ScopedAlias) :
    Closes store settings ((Relation.cte c).places settings depth ctx aliases)
      (Place.closing ⟨depth, ctx, .relation (.cte c)⟩)
      ((Relation.cte c).render (settings.links store depth) ctx) := by
  rw [Relation.render_cte]
  exact (Writes.query rfl c.source).closes fun body =>
    .own (Place.closing ⟨depth, ctx, .relation (.cte c)⟩) body

theorem JoinOf.render_closes {j : Join} {aliases : List ScopedAlias} {draft named final : Draft}
    {text : String} (opened : (joinAliases j.sources).outcome draft = (.ok aliases, named))
    (outcome : ((Relation.join j).render (settings.links store depth) ctx).outcome draft =
      (.ok text, final)) :
    let places := (Relation.join j).places settings depth ctx aliases
    (∀ p ∈ inTurn store settings places named, p.Written store settings) ∧
      ∃ sql, (ctx.enclose sql).outcome (afterAll store settings places named) =
        (.ok text, final) := by
  rw [Relation.render_join, ExceptT.outcome_bind_of_ok opened] at outcome
  have places : (Relation.join j).places settings depth ctx aliases =
      let inner := ctx.joined aliases
      Place.relations depth inner j.sources ++ (Place.exprs depth inner j.on ++
        (Place.exprs depth inner (j.columns.getD []) ++ [])) := by
    simp [Relation.places]
  rw [places]
  refine Writes.closes (Writes.relations j.sources) (fun _ => ?_) named text final outcome
  exact (Writes.exprs j.on).closes fun _ => (Writes.joined j.columns).closes fun _ => .own _ _

theorem Statement.render_closes (s : Statement) :
    Closes store settings (s.places depth ctx) (Place.closing ⟨depth, ctx, .statement s⟩)
      (s.render (settings.links store depth) ctx) := by
  cases s with
  | create s =>
      apply Writes.closes_pure
      rw [Statement.render, CreateTable.render]
      cases source : s.source with
      | some r =>
          simp only [Statement.places, source]
          exact (Writes.relation r).map
      | none =>
          simp only [Statement.places, source]
          split
          · exact .pure _
          · exact .throw _
  | drop s => exact (Writes.pure _).closes_pure
  | truncate t => exact (Writes.pure _).closes_pure
  | insert s =>
      obtain ⟨table, source, columns⟩ := s
      apply Writes.closes_pure
      cases source with
      | rows rows => exact .pure _
      | query r => exact (Writes.relation r).map
  | commit => exact (Writes.pure _).closes_pure
  | explain query =>
      rw [Statement.render, Context.query_eq, bind_assoc]
      exact (Writes.relation query).closes fun text =>
        .own (Place.closing ⟨depth, ctx, .statement (.explain query)⟩) text

end Relations

/-! The parts of a passage. -/

namespace Passage

variable {store : Store} {settings : Settings} {p q : Passage}

/-- Sources always get their aliases, and that changes only how many names were generated. -/
theorem joinAliases_named (sources : List Relation) (draft : Draft) :
    ∃ aliases generated, (joinAliases sources).outcome draft =
      (.ok aliases, { draft with generated }) := by
  fun_induction joinAliases sources generalizing draft with
  | case1 => exact ⟨[], draft.generated, rfl⟩
  | case2 rest a ih =>
      obtain ⟨aliases, generated, named⟩ := ih draft
      exact ⟨_, generated, ExceptT.outcome_bind_of_ok named⟩
  | case3 rest r _ ih =>
      obtain ⟨aliases, generated, named⟩ := ih { draft with generated := draft.generated + 1 }
      have first : Rendering.newName.outcome draft = (.ok (Draft.generatedName
          (draft.generated + 1)), { draft with generated := draft.generated + 1 }) := rfl
      rw [ExceptT.outcome_bind_of_ok first]
      exact ⟨_, generated, ExceptT.outcome_bind_of_ok named⟩

theorem opening_of_join {j : Join} (isJoin : p.node = .relation (.join j)) :
    (joinAliases j.sources).outcome p.draft = (.ok p.opening.1, p.opening.2) := by
  obtain ⟨aliases, generated, named⟩ := joinAliases_named j.sources p.draft
  simp only [opening, isJoin, named]

@[simp] theorem opening_definitions (p : Passage) :
    p.opening.2.definitions = p.draft.definitions := by
  unfold opening
  split
  · rename_i j _
    obtain ⟨aliases, generated, named⟩ := joinAliases_named j.sources p.draft
    simp only [named]
  · rfl

/-- A passage that comes to a text has come through all its parts, and then it has added what is its
own. -/
theorem parts_written {text : String} {final : Draft}
    (written : p.outcome store settings = (.ok text, final)) :
    (∀ q ∈ p.parts store settings, q.Written store settings) ∧
      ∃ sql, (p.closing sql).outcome (p.middle store settings) = (.ok text, final) := by
  obtain ⟨⟨depth, ctx, node⟩, draft⟩ := p
  cases node with
  | expr e => exact (Expr.render_writes e).closes_pure draft text final written
  | statement s => exact Statement.render_closes s draft text final written
  | relation r =>
      cases r with
      | table t => exact (Rendering.Writes.pure _).closes_pure draft text final written
      | aliased a =>
          exact (Rendering.Writes.relation a.source).map.closes_pure draft text final written
      | join j => exact JoinOf.render_closes (opening_of_join rfl) written
      | grouping g => exact GroupingOf.render_closes g draft text final written
      | setOperation o => exact SetOperationOf.render_closes o [] draft text final written
      | select s => exact SelectOf.render_closes s [] draft text final written
      | cte c => exact CteOf.render_closes c [] draft text final written
      | param p => exact (Settings.param_writes p.name).closes_pure draft text final written

end Passage

end SqlQuery
