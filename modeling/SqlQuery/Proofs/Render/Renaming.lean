import SqlQuery.Dialect.DuckDB
import SqlQuery.Proofs.Query.Owners
import SqlQuery.Proofs.Render.Drawing
import SqlQuery.Proofs.Render.Substitution

/-!
The identities of relations in a text. They tell relations apart and are not written, so any other
identities that tell the same relations apart do as well.
-/

namespace SqlQuery

def Settings.substitute (σ : Substitution) (settings : Settings) : Settings :=
  { settings with
    params := settings.params.map (List.map fun entry => (entry.1, entry.2.substitute σ)) }

theorem Settings.param_substitute (σ : Substitution) (settings : Settings) (name : String) :
    (settings.substitute σ).param name = (settings.param name).map (Node.substitute σ) := by
  obtain ⟨dialect, autocommit, params⟩ := settings
  cases params with
  | none => rfl
  | some params =>
      have found := List.lookup_map_values (Node.substitute σ) params name
      simp only [Settings.param, Settings.substitute, Option.map_some, Option.bind_some, found]
      cases params.lookup name <;> rfl

section

variable {f : RelationId → RelationId} {store renamed : Store}

theorem Store.resolve_renamed
    (bindings : renamed.bindings = (store.substitute (.renaming f)).bindings) (id : PlaceholderId)
    (name : String) :
    renamed.resolve id name = (store.resolve id name).map (Expr.substitute (.renaming f)) := by
  have bound : renamed.binding? id =
      (store.binding? id).map (Expr.substitute (.renaming f)) := by
    rw [Store.binding?, bindings]
    exact Store.binding?_substitute _ store id
  rw [Store.resolve, Store.resolve, bound]
  cases store.binding? id <;> rfl

/-- A renaming leaves parameters alone, so the two ways to mention one come to the same. -/
theorem Substitution.keeps_of_renaming {after links : Links} (injective : Function.Injective f)
    (placeholder : ∀ id name ctx,
      after.placeholder id name (ctx.rename f) = links.placeholder id name ctx)
    (param : ∀ name ctx, after.param name (ctx.rename f) = links.param name ctx) :
    (Substitution.renaming f).Keeps (fun _ => True) after links where
  injective := injective
  placeholder id name ctx _ := placeholder id name ctx
  param name ctx _ := param name ctx
  tableParam name ctx _ := param name ctx

theorem Settings.values_renamed
    (bindings : renamed.bindings = (store.substitute (.renaming f)).bindings)
    (settings : Settings) :
    (settings.substitute (.renaming f)).values renamed =
      (settings.values store).map (Node.substitute (.renaming f)) := by
  obtain ⟨dialect, autocommit, params⟩ := settings
  rw [Settings.values, Settings.values, bindings, List.map_append]
  cases params with
  | none => simp [Settings.substitute, Store.substitute, Function.comp_def, Node.substitute]
  | some params => simp [Settings.substitute, Store.substitute, Function.comp_def, Node.substitute]

theorem Settings.depth_renamed
    (bindings : renamed.bindings = (store.substitute (.renaming f)).bindings)
    (settings : Settings) :
    (settings.substitute (.renaming f)).depth renamed = settings.depth store := by
  have owners : (settings.substitute (.renaming f)).owners renamed =
      (settings.owners store).map f := by
    rw [Settings.owners, Settings.owners, Settings.values_renamed bindings, List.flatMap_map,
      List.map_flatMap]
    simp only [Node.owners_renaming]
  rw [Settings.depth, Settings.depth, owners, Settings.values_renamed bindings, List.length_map,
    List.length_map]

theorem Settings.links_renamed (injective : Function.Injective f)
    (bindings : renamed.bindings = (store.substitute (.renaming f)).bindings)
    (settings : Settings) (depth : Nat) :
    (Substitution.renaming f).Keeps (fun _ => True)
      ((settings.substitute (.renaming f)).links renamed depth) (settings.links store depth) := by
  induction depth with
  | zero =>
      apply Substitution.keeps_of_renaming injective
      · intro id name ctx
        simp only [Settings.links, Store.resolve_renamed bindings]
        cases store.resolve id name <;> rfl
      · intro name ctx
        simp only [Settings.links, Settings.param_substitute]
        cases settings.param name <;> rfl
  | succ depth ih =>
      apply Substitution.keeps_of_renaming injective
      · intro id name ctx
        simp only [Settings.links, Store.resolve_renamed bindings]
        cases store.resolve id name with
        | error e => rfl
        | ok e => exact ih.induction.expr e (fun _ _ => trivial) ctx
      · intro name ctx
        simp only [Settings.links, Settings.param_substitute]
        cases settings.param name with
        | error e => rfl
        | ok node => exact Node.render_substitute ih (fun _ _ => trivial) ctx

end

/-- Where none are drawn on the way, it does not matter which identities are next. -/
theorem Node.compile_renaming_omitted {f : RelationId → RelationId}
    (injective : Function.Injective f) (node : Node) (store : Store) (settings : Settings)
    (relations : Nat) :
    (node.substitute (.renaming f)).compile { store.substitute (.renaming f) with relations }
        (settings.substitute (.renaming f)) =
      node.compile store settings := by
  let renamed : Store := { store.substitute (.renaming f) with relations }
  have bindings : renamed.bindings = (store.substitute (.renaming f)).bindings := rfl
  have depth := Settings.depth_renamed bindings settings
  have linked := Settings.links_renamed injective bindings settings (settings.depth store)
  have only : node.MentionsOnly fun _ => True := fun _ _ => trivial
  have text := Node.renderRoot_substitute linked only nofun settings.context
  rw [Node.compile, Node.compile, depth, Node.compileWithin_eq, Node.compileWithin_eq, ← text]
  rfl

/-- Other identities for the relations of a node, of what its placeholders are bound to and of its
parameters leave its text as it is, or the error in place of one, if the identities that are drawn
on the way are beyond all in use, before and after. -/
theorem Node.compile_renaming {f : RelationId → RelationId} (injective : Function.Injective f)
    {node : Node} {store : Store} {settings : Settings} {relations : Nat}
    (supplied : settings.Supplied store node)
    (suppliedAfter : (settings.substitute (.renaming f)).Supplied
      { store.substitute (.renaming f) with relations } (node.substitute (.renaming f))) :
    (node.substitute (.renaming f)).compile { store.substitute (.renaming f) with relations }
        (settings.substitute (.renaming f)) .drawn =
      node.compile store settings .drawn := by
  rw [Node.compile_drawn suppliedAfter, Node.compile_drawn supplied]
  exact Node.compile_renaming_omitted injective node store settings relations

/-! Orders under the alias `o`, joined with their refunds. -/

namespace Refunds

def orders : Relation := .table ⟨⟨0⟩, .orders, none⟩

def refunds : Relation := .table ⟨⟨1⟩, .refunds, none⟩

def join : Relation :=
  .join
    { id := ⟨3⟩
      sources := [.aliased ⟨⟨2⟩, orders, "o"⟩, refunds]
      kind := .inner
      on := [.binary .eq [.column ⟨orders, "id"⟩, .placeholder ⟨0⟩ "order"],
        .binary .gt [.param "amount", .value (.int 0)]]
      columns := none }

def store : Store where
  relations := 4
  placeholders := 1
  bindings := [(⟨0⟩, .column ⟨refunds, "order"⟩)]

def settings : Settings where
  dialect := .duckDB
  params := some [("amount", .expr (.column ⟨orders, "amount"⟩))]

def shift (id : RelationId) : RelationId :=
  ⟨id.number + 100⟩

theorem shift_injective : Function.Injective shift := by
  intro ⟨a⟩ ⟨b⟩ same
  simpa [shift] using same

/-- The join, the column behind its placeholder and the one in its parameter have the first four
identities, or those that come in their place. -/
theorem supplied {f : RelationId → RelationId} {relations : Nat}
    (given : ∀ n < 4, (f ⟨n⟩).number < relations) :
    (settings.substitute (.renaming f)).Supplied
      { store.substitute (.renaming f) with relations }
      ((Node.relation join).substitute (.renaming f)) := by
  have inOrders : (orders.substitute (.renaming f)).HoldsOnly (Relation.Before relations) :=
    .of_parts (given 0 (by decide)) (List.forall_mem_nil _) (List.forall_mem_nil _)
  have inRefunds : (refunds.substitute (.renaming f)).HoldsOnly (Relation.Before relations) :=
    .of_parts (given 1 (by decide)) (List.forall_mem_nil _) (List.forall_mem_nil _)
  have inAlias : (Relation.aliased ⟨f ⟨2⟩, orders.substitute (.renaming f), "o"⟩).HoldsOnly
      (Relation.Before relations) :=
    .of_parts (given 2 (by decide)) (List.forall_mem_singleton.mpr inOrders)
      (List.forall_mem_nil _)
  have leaf {e : Expr} (ownerless : ∀ c, e ≠ .column c) (plain : ∀ t, e ≠ .subquery t)
      (childless : e.children = []) : e.HoldsOnly (Relation.Before relations) :=
    .of_children ownerless plain (childless ▸ List.forall_mem_nil _)
  have equal : (Expr.binary .eq [.column ⟨orders.substitute (.renaming f), "id"⟩,
      .placeholder ⟨0⟩ "order"]).HoldsOnly (Relation.Before relations) :=
    .of_children nofun nofun (List.forall_mem_cons.mpr
      ⟨.column inOrders, List.forall_mem_singleton.mpr (leaf nofun nofun rfl)⟩)
  have positive : (Expr.binary .gt [.param "amount", .value (.int 0)]).HoldsOnly
      (Relation.Before relations) :=
    .of_children nofun nofun (List.forall_mem_cons.mpr
      ⟨leaf nofun nofun rfl, List.forall_mem_singleton.mpr (leaf nofun nofun rfl)⟩)
  have whole : (join.substitute (.renaming f)).HoldsOnly (Relation.Before relations) :=
    .of_parts (given 3 (by decide))
      (List.forall_mem_cons.mpr ⟨inAlias, List.forall_mem_singleton.mpr inRefunds⟩)
      (List.forall_mem_cons.mpr ⟨equal, List.forall_mem_singleton.mpr positive⟩)
  exact List.forall_mem_cons.mpr ⟨whole, List.forall_mem_cons.mpr
    ⟨Expr.HoldsOnly.column inRefunds, List.forall_mem_singleton.mpr
      (Expr.HoldsOnly.column inOrders)⟩⟩

end Refunds

open Refunds in
theorem compile_renaming_of_refunds :
    Function.Injective shift ∧ settings.Supplied store (.relation join) ∧
      (settings.substitute (.renaming shift)).Supplied
        { store.substitute (.renaming shift) with relations := 104 }
        ((Node.relation join).substitute (.renaming shift)) ∧
      ((Node.relation join).substitute (.renaming shift)).compile
          { store.substitute (.renaming shift) with relations := 104 }
          (settings.substitute (.renaming shift)) .drawn =
        .ok ("SELECT * FROM \"orders\" \"o\" JOIN \"refunds\" \"tmp1\" ON " ++
          "(\"o\".\"id\" = \"tmp1\".\"order\") AND (\"o\".\"amount\" > 0)") := by
  have before : settings.Supplied store (.relation join) :=
    supplied (f := id) fun _ below => below
  have after : (settings.substitute (.renaming shift)).Supplied
      { store.substitute (.renaming shift) with relations := 104 }
      ((Node.relation join).substitute (.renaming shift)) :=
    supplied fun _ below => Nat.add_lt_add_right below 100
  refine ⟨shift_injective, before, after, ?_⟩
  rw [Node.compile_renaming shift_injective before after]
  rfl

open Refunds in
/-- A generated alias that gets the identity of the orders takes their columns for its own, next to
the alias that they have. -/
theorem tooManyAliases_of_reused_identity :
    (Node.relation join).compile { store with relations := 0 } settings .drawn =
      .error (.tooManyAliases "id") :=
  rfl

end SqlQuery
