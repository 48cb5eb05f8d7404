import SqlQuery.Dialect.DuckDB
import SqlQuery.Proofs.Render.Reference
import SqlQuery.Proofs.Render.Substitution

/-!
Parameters that are given as expressions. They are written like the query in which each of them is
replaced by its expression, the parameters in that expression replaced as well.
-/

open Relation (ReflTransGen TransGen)

namespace SqlQuery

/-- Expressions for parameters. -/
abbrev Values := List (String × Expr)

namespace Values

variable (values : Values)

/-- Replaces parameters by their values, in the values again, and so on for the given number of
rounds. -/
def unfolded : Nat → Substitution
  | 0 => .renaming id
  | rounds + 1 =>
    { relation := id
      param := fun name =>
        match values.lookup name with
        | some value => value.substitute (unfolded rounds)
        | none => .param name }

/-- A chain of references between the values is at most as long as there are values. -/
def substitution : Substitution :=
  values.unfolded values.length

def params : Params :=
  values.map fun value => (value.1, .expr value.2)

def keys : List Mention :=
  values.map fun value => .param value.1

variable {values}

theorem lookup_params (name : String) :
    values.params.lookup name = (values.lookup name).map .expr :=
  List.lookup_map_values Node.expr values name

theorem mem_keys {name : String} {value : Expr} (given : values.lookup name = some value) :
    Mention.param name ∈ values.keys := by
  obtain ⟨before, after, rfl, _⟩ := List.lookup_eq_some_iff.mp given
  simp [keys]

theorem unfolded_of_some {name : String} {value : Expr} (given : values.lookup name = some value)
    (rounds : Nat) :
    (values.unfolded (rounds + 1)).param name = value.substitute (values.unfolded rounds) := by
  simp only [unfolded, given]

theorem relation_unfolded (rounds : Nat) : (values.unfolded rounds).relation = id := by
  cases rounds <;> rfl

end Values

def Store.keys (store : Store) : List Mention :=
  store.bindings.map fun binding => .placeholder binding.1

theorem Store.mem_keys {store : Store} {id : PlaceholderId} {e : Expr}
    (bound : store.binding? id = some e) : Mention.placeholder id ∈ store.keys := by
  obtain ⟨before, after, same, _⟩ := List.lookup_eq_some_iff.mp bound
  simp [Store.keys, same]

namespace Settings

/-- The same settings with these values for the parameters. -/
def supplied (settings : Settings) (values : Values) : Settings :=
  { settings with params := some values.params }

def unsupplied (settings : Settings) : Settings :=
  { settings with params := none }

variable {store : Store} {settings : Settings} {values : Values} {name : String}

theorem behind_supplied :
    (settings.supplied values).behind store (.param name) = (values.lookup name).map .expr :=
  Values.lookup_params name

theorem Leads.cases {m n : Mention} (leads : (settings.supplied values).Leads store m n) :
    (∃ id e, m = .placeholder id ∧ store.binding? id = some e ∧ e.Mentions n) ∨
      ∃ name value, (m = .param name ∨ m = .tableParam name) ∧ values.lookup name = some value ∧
        value.Mentions n := by
  obtain ⟨node, behind, mentioned⟩ := leads
  cases m with
  | placeholder id =>
      obtain ⟨e, bound, rfl⟩ := Option.map_eq_some_iff.mp behind
      exact .inl ⟨id, e, rfl, bound, mentioned⟩
  | param name =>
      rw [behind_supplied] at behind
      obtain ⟨value, given, rfl⟩ := Option.map_eq_some_iff.mp behind
      exact .inr ⟨name, value, .inl rfl, given, mentioned⟩
  | tableParam name =>
      change (settings.supplied values).behind store (.param name) = some node at behind
      rw [behind_supplied] at behind
      obtain ⟨value, given, rfl⟩ := Option.map_eq_some_iff.mp behind
      exact .inr ⟨name, value, .inr rfl, given, mentioned⟩

theorem param_supplied_of_some {value : Expr} (given : values.lookup name = some value) :
    (settings.supplied values).param name = .ok (.expr value) := by
  simp only [param, supplied, Option.bind_some, Values.lookup_params, given, Option.map_some]

theorem param_supplied_of_none (missing : values.lookup name = none) :
    (settings.supplied values).param name = .error (.missingParam name) := by
  simp only [param, supplied, Option.bind_some, Values.lookup_params, missing, Option.map_none]

theorem links_param_of_error {e : Error} (failed : settings.param name = .error e) (depth : Nat)
    (ctx : Context) : (settings.links store depth).param name ctx = throw e := by
  cases depth <;> simp only [links, failed] <;> rfl

theorem links_param_of_ok {node : Node} (given : settings.param name = .ok node) (depth : Nat)
    (ctx : Context) :
    (settings.links store (depth + 1)).param name ctx =
      node.render (settings.links store depth) ctx := by
  simp only [links, given]
  rfl

variable {id : PlaceholderId}

theorem links_placeholder_of_none (unbound : store.binding? id = none) (depth : Nat)
    (ctx : Context) :
    (settings.links store depth).placeholder id name ctx = throw (.unresolved name) := by
  cases depth <;> simp only [links, Store.resolve, unbound] <;> rfl

theorem links_placeholder_of_some {e : Expr} (bound : store.binding? id = some e) (depth : Nat)
    (ctx : Context) :
    (settings.links store (depth + 1)).placeholder id name ctx =
      e.render (settings.links store depth) ctx := by
  simp only [links, Store.resolve, bound]
  rfl

end Settings

section

variable {store : Store} {values : Values} {settings : Settings} {node : Node}

/-- A parameter from which no chain of references comes back to itself needs no more rounds than
there are parameters to come to. -/
theorem Values.unfolded_succ_param {name : String} {rounds : Nat}
    (acyclic : ∀ m, ReflTransGen ((settings.supplied values).Leads store) (.param name) m →
      ¬ TransGen ((settings.supplied values).Leads store) m m)
    (enough : reachable ((settings.supplied values).Leads store) values.keys (.param name) ≤
      rounds) :
    (values.unfolded (rounds + 1)).param name = (values.unfolded rounds).param name := by
  induction rounds generalizing name with
  | zero =>
      cases given : values.lookup name with
      | none => simp only [Values.unfolded, Substitution.renaming, given]
      | some value =>
          have listed := Values.mem_keys given
          exact absurd (reachable_pos listed) (Nat.not_lt.mpr enough)
  | succ rounds ih =>
      cases given : values.lookup name with
      | none => simp only [Values.unfolded, given]
      | some value =>
          have only : value.MentionsOnly
              ((values.unfolded (rounds + 1)).AgreeOn (values.unfolded rounds)) := by
            rintro m mentioned other rfl
            have leads : (settings.supplied values).Leads store (.param name) (.param other) :=
              ⟨.expr value, by rw [Settings.behind_supplied, given]; rfl, mentioned⟩
            have fewer := reachable_lt_of_step (acyclic _ .refl) leads (Values.mem_keys given)
            apply ih
            · intro m path
              exact acyclic m (path.head leads)
            · omega
          have relation : (values.unfolded (rounds + 1)).relation =
              (values.unfolded rounds).relation := by
            rw [Values.relation_unfolded, Values.relation_unfolded]
          have same := (Substitution.agree_induction relation).expr value only
          rw [Values.unfolded_of_some given, Values.unfolded_of_some given, same]

/-- What stands for a parameter has its own parameters replaced. -/
theorem Values.substitution_param {name : String} {value : Expr}
    (acyclic : ∀ m, ReflTransGen ((settings.supplied values).Leads store) (.param name) m →
      ¬ TransGen ((settings.supplied values).Leads store) m m)
    (given : values.lookup name = some value) :
    values.substitution.param name = value.substitute values.substitution := by
  have enough : reachable ((settings.supplied values).Leads store) values.keys (.param name) ≤
      values.length := by
    calc
      reachable _ values.keys (.param name) ≤ values.keys.length := reachable_le_length
      _ = values.length := List.length_map ..
  rw [Values.substitution, ← Values.unfolded_succ_param acyclic enough,
    Values.unfolded_of_some given]

theorem Values.substitution_param_of_none {name : String} (missing : values.lookup name = none) :
    values.substitution.param name = .param name := by
  rw [Values.substitution]
  cases values.length with
  | zero => rfl
  | succ rounds => simp only [Values.unfolded, missing]

end

/-! What a node reaches, with the number of links that it takes at most. -/

namespace Settings

variable (store : Store) (values : Values) (settings : Settings) (node : Node)

/-- Reached from a node and with few enough placeholders and parameters, and few enough placeholders
among them, to come to. -/
structure Near (depth links : Nat) (m : Mention) : Prop where
  reached : (settings.supplied values).Reaches store node m
  depth_le :
    reachable ((settings.supplied values).Leads store) (store.keys ++ values.keys) m ≤ depth
  links_le : reachable ((settings.supplied values).Leads store) store.keys m ≤ links

variable {store values settings node} {depth links : Nat}

theorem near_of_reached {m : Mention} (reached : (settings.supplied values).Reaches store node m)
    (enough : store.depth ≤ links) :
    Near store values settings node ((settings.supplied values).depth store) links m where
  reached := reached
  depth_le := by
    calc
      reachable _ (store.keys ++ values.keys) m ≤ (store.keys ++ values.keys).length :=
        reachable_le_length
      _ = ((settings.supplied values).values store).length := by
        simp [Store.keys, Values.keys, Settings.values, supplied, Values.params]
      _ ≤ (settings.supplied values).depth store := length_values_le_depth _ _
  links_le := by
    calc
      reachable _ store.keys m ≤ store.keys.length := reachable_le_length
      _ = store.depth := List.length_map ..
      _ ≤ links := enough

theorem Near.placeholder (acyclic : (settings.supplied values).Acyclic store node)
    {id : PlaceholderId} {e : Expr} (bound : store.binding? id = some e)
    (near : Near store values settings node depth links (.placeholder id)) :
    ∃ depth' links', depth = depth' + 1 ∧ links = links' + 1 ∧
      e.MentionsOnly (Near store values settings node depth' links') := by
  have listed := Store.mem_keys bound
  have listedAll : Mention.placeholder id ∈ store.keys ++ values.keys :=
    List.mem_append_left _ listed
  have some := reachable_pos (r := (settings.supplied values).Leads store) listed
  have someAll := reachable_pos (r := (settings.supplied values).Leads store) listedAll
  have := near.depth_le
  have := near.links_le
  refine ⟨depth - 1, links - 1, by omega, by omega, ?_⟩
  intro m mentioned
  have leads : (settings.supplied values).Leads store (.placeholder id) m :=
    ⟨.expr e, by simp only [behind, bound, Option.map_some], mentioned⟩
  have fewer := reachable_lt_of_step (acyclic _ near.reached) leads listed
  have fewerAll := reachable_lt_of_step (acyclic _ near.reached) leads listedAll
  exact ⟨near.reached.step leads, by omega, by omega⟩

theorem Near.param (acyclic : (settings.supplied values).Acyclic store node) {name : String}
    {value : Expr} (given : values.lookup name = some value)
    (near : Near store values settings node depth links (.param name)) :
    ∃ depth', depth = depth' + 1 ∧
      value.MentionsOnly (Near store values settings node depth' links) := by
  have listed : Mention.param name ∈ store.keys ++ values.keys :=
    List.mem_append_right _ (Values.mem_keys given)
  have some := reachable_pos (r := (settings.supplied values).Leads store) listed
  have := near.depth_le
  refine ⟨depth - 1, by omega, ?_⟩
  intro m mentioned
  have leads : (settings.supplied values).Leads store (.param name) m :=
    ⟨.expr value, by rw [behind_supplied, given]; rfl, mentioned⟩
  have fewer := reachable_lt_of_step (acyclic _ near.reached) leads listed
  have noMore : reachable ((settings.supplied values).Leads store) store.keys m ≤
      reachable ((settings.supplied values).Leads store) store.keys (.param name) :=
    reachable_le_of_step leads
  exact ⟨near.reached.step leads, by omega, Nat.le_trans noMore near.links_le⟩

/-- On the way to what a placeholder stands for both texts follow a link, on the way to the value
of a parameter only the text before the substitution does. -/
theorem links_supplied (acyclic : (settings.supplied values).Acyclic store node)
    (free : ∀ name, (settings.supplied values).Reaches store node (.tableParam name) →
      values.lookup name = none) (depth links : Nat) :
    values.substitution.Keeps (Near store values settings node depth links)
      (settings.unsupplied.links (store.substitute values.substitution) links)
      ((settings.supplied values).links store depth) := by
  induction depth using Nat.strongRecOn generalizing links with
  | ind depth ih =>
      refine ⟨?_, ?_, ?_, ?_⟩
      · rw [Values.substitution, Values.relation_unfolded]
        exact fun _ _ same => same
      · intro id name ctx near
        have after := Store.binding?_substitute values.substitution store id
        cases bound : store.binding? id with
        | none =>
            rw [bound] at after
            rw [links_placeholder_of_none bound, links_placeholder_of_none after]
        | some e =>
            rw [bound] at after
            obtain ⟨depth', links', rfl, rfl, only⟩ := near.placeholder acyclic bound
            rw [links_placeholder_of_some bound, links_placeholder_of_some after]
            exact (ih depth' (Nat.lt_succ_self depth') links').induction.expr e only ctx
      · intro name ctx near
        cases given : values.lookup name with
        | none =>
            rw [Values.substitution_param_of_none given,
              links_param_of_error (param_supplied_of_none given)]
            exact links_param_of_error rfl _ _
        | some value =>
            have resolved := Values.substitution_param (acyclic.along near.reached) given
            obtain ⟨depth', rfl, only⟩ := near.param acyclic given
            rw [resolved,
              links_param_of_ok (param_supplied_of_some given)]
            exact (ih depth' (Nat.lt_succ_self depth') links).induction.expr value only ctx
      · intro name ctx near
        have missing := free name near.reached
        rw [links_param_of_error (param_supplied_of_none missing)]
        exact links_param_of_error rfl _ _

end Settings

/-- The text of a node with values for its parameters, or the error in place of one, is that of the
node in which every parameter with a value is replaced by it, the parameters of the value replaced
as well; one without a value is missing on both sides. Relations that are parameters are not
replaced, so no value is given for those that are reached. -/
theorem Node.compile_substitution {store : Store} {values : Values} {settings : Settings}
    {node : Node} (acyclic : (settings.supplied values).Acyclic store node)
    (free : ∀ name, (settings.supplied values).Reaches store node (.tableParam name) →
      values.lookup name = none)
    (bare : ∀ name, node ≠ .expr (.param name)) :
    let σ := values.substitution
    node.compile store (settings.supplied values) =
        (node.substitute σ).compile (store.substitute σ) settings.unsupplied ∧
      ∀ name, (settings.supplied values).Reaches store node (.param name) →
        match values.lookup name with
        | some value => σ.param name = value.substitute σ
        | none => ∀ depth ctx,
            (Expr.param name).render ((settings.supplied values).links store depth) ctx =
                throw (.missingParam name) ∧
              (σ.param name).render (settings.unsupplied.links (store.substitute σ) depth) ctx =
                throw (.missingParam name) := by
  intro σ
  constructor
  · have enough : store.depth ≤ settings.unsupplied.depth (store.substitute σ) := by
      calc
        store.depth = (settings.unsupplied.values (store.substitute σ)).length := by
          simp [Settings.values, Settings.unsupplied, Store.depth, Store.substitute]
        _ ≤ settings.unsupplied.depth (store.substitute σ) := Settings.length_values_le_depth _ _
    have linked := Settings.links_supplied acyclic free ((settings.supplied values).depth store)
      (settings.unsupplied.depth (store.substitute σ))
    have only : node.MentionsOnly
        (Settings.Near store values settings node ((settings.supplied values).depth store)
          (settings.unsupplied.depth (store.substitute σ))) :=
      fun m mentioned => Settings.near_of_reached (Settings.reaches_of_mentions mentioned) enough
    have text := Node.renderRoot_substitute linked only
      (fun name _ same => absurd same (bare name)) settings.context
    have root : (node.substitute σ).renderRoot (settings.unsupplied.links (store.substitute σ)
          (settings.unsupplied.depth (store.substitute σ))) settings.unsupplied.context =
        node.renderRoot ((settings.supplied values).links store
          ((settings.supplied values).depth store)) (settings.supplied values).context :=
      text
    rw [Node.compile, Node.compile, Node.compileWithin_eq, Node.compileWithin_eq, root]
  · intro name reached
    cases given : values.lookup name with
    | some value => exact Values.substitution_param (acyclic.along reached) given
    | none =>
        intro depth ctx
        constructor
        · exact Settings.links_param_of_error (Settings.param_supplied_of_none given) depth ctx
        · rw [Values.substitution_param_of_none given]
          exact Settings.links_param_of_error rfl depth ctx

/-! Orders above a bound that is itself given by a parameter. -/

namespace BoundedOrders

def orders : Table := ⟨⟨0⟩, .orders, none⟩

def large : Relation := .select
  { id := ⟨1⟩
    table := some (.table orders)
    filters := [.binary .gt [.placeholder ⟨0⟩ "amount", .param "least"]] }

def store : Store where
  relations := 2
  placeholders := 1
  bindings := [(⟨0⟩, .column ⟨.table orders, "amount"⟩)]

def values : Values :=
  [("least", .binary .add [.param "base", .value (.int 1)]), ("base", .value (.int 5))]

def settings : Settings := { dialect := .duckDB }

theorem mentions_of_value {name : String} {value : Expr} {m : Mention}
    (given : values.lookup name = some value) (mentioned : value.Mentions m) :
    name = "least" ∧ m = .param "base" := by
  simp only [values, List.lookup_cons, List.lookup_nil] at given
  split at given
  · rename_i isLeast
    cases given
    cases mentioned with
    | child listed inner =>
        rcases List.mem_pair.mp listed with rfl | rfl
        · cases inner with
          | param isBase => exact ⟨eq_of_beq isLeast, isBase⟩
          | child none _ => cases none
        · cases inner with
          | child none _ => cases none
  · split at given
    · cases given
      cases mentioned with
      | child none _ => cases none
    · cases given

theorem leads_to_base {m n : Mention} (leads : (settings.supplied values).Leads store m n) :
    m ≠ .param "base" ∧ n = .param "base" := by
  rcases leads.cases with ⟨id, e, rfl, bound, mentioned⟩ | ⟨name, value, start, given, mentioned⟩
  · simp only [Store.binding?, store, List.lookup_cons, List.lookup_nil] at bound
    split at bound
    · cases bound
      cases mentioned with
      | child none _ => cases none
    · cases bound
  · obtain ⟨rfl, isBase⟩ := mentions_of_value given mentioned
    rcases start with rfl | rfl
    · exact ⟨by decide, isBase⟩
    · exact ⟨by decide, isBase⟩

theorem mentions_of_large {m : Mention} (mentioned : large.Mentions m) :
    m = .placeholder ⟨0⟩ ∨ m = .param "least" := by
  cases mentioned with
  | source listed inner =>
      cases List.mem_singleton.mp listed
      cases inner with
      | source none _ => cases none
      | expr none _ => cases none
  | expr listed inner =>
      cases List.mem_singleton.mp listed
      cases inner with
      | child listed inner =>
          rcases List.mem_pair.mp listed with rfl | rfl
          · cases inner with
            | placeholder _ same => exact .inl same
            | child none _ => cases none
          · cases inner with
            | param same => exact .inr same
            | child none _ => cases none

theorem acyclic : (settings.supplied values).Acyclic store (.relation large) := by
  intro m _
  refine Settings.not_transGen_of_rank (fun m => if m = .param "base" then 0 else 1) ?_ m
  intro m n leads
  obtain ⟨start, rfl⟩ := leads_to_base leads
  simp [start]

theorem free (name : String)
    (reached : (settings.supplied values).Reaches store (.relation large) (.tableParam name)) :
    values.lookup name = none := by
  obtain ⟨first, mentioned, path⟩ := reached
  cases path with
  | refl => rcases mentions_of_large mentioned with same | same <;> cases same
  | tail _ leads => cases (leads_to_base leads).2

end BoundedOrders

open BoundedOrders in
theorem compile_substitution_of_boundedOrders :
    let σ := values.substitution
    let sql := "SELECT * FROM \"orders\" WHERE (\"amount\" > (5 + 1))"
    (settings.supplied values).Acyclic store (.relation large) ∧
      (∀ name, (settings.supplied values).Reaches store (.relation large) (.tableParam name) →
        values.lookup name = none) ∧
      (Node.relation large).compile store (settings.supplied values) = .ok sql ∧
      ((Node.relation large).substitute σ).compile (store.substitute σ) settings.unsupplied =
        .ok sql := by
  intro σ sql
  have compiled : (Node.relation large).compile store (settings.supplied values) = .ok sql := rfl
  have same := (Node.compile_substitution BoundedOrders.acyclic BoundedOrders.free nofun).1
  exact ⟨BoundedOrders.acyclic, BoundedOrders.free, compiled, same ▸ compiled⟩

/-! A query in the value of a parameter, for the rows of a relation that is a parameter too. -/

namespace OpenTable

def node : Node := .expr (.negate (.param "least"))

def values : Values := [("least", .subquery (.param ⟨⟨0⟩, "source"⟩)), ("source", .code "orders")]

def settings : Settings := { dialect := .duckDB }

theorem mentions_of_value {name : String} {value : Expr} {m : Mention}
    (given : values.lookup name = some value) (mentioned : value.Mentions m) :
    name = "least" ∧ m = .tableParam "source" := by
  simp only [values, List.lookup_cons, List.lookup_nil] at given
  split at given
  · rename_i isLeast
    cases given
    cases mentioned with
    | child none _ => cases none
    | subquery inner =>
        cases inner with
        | param isSource => exact ⟨eq_of_beq isLeast, isSource⟩
        | source none _ => cases none
        | expr none _ => cases none
  · split at given
    · cases given
      cases mentioned with
      | child none _ => cases none
    · cases given

theorem acyclic (m : Mention) :
    ¬ TransGen ((settings.supplied values).Leads {}) m m := by
  refine Settings.not_transGen_of_rank (fun m => if m = .tableParam "source" then 0 else 1) ?_ m
  intro m n leads
  rcases leads.cases with ⟨id, e, _, bound, _⟩ | ⟨name, value, start, given, mentioned⟩
  · cases bound
  · obtain ⟨rfl, rfl⟩ := mentions_of_value given mentioned
    rcases start with rfl | rfl <;> simp

end OpenTable

open OpenTable in
/-- A relation that is a parameter takes the expression that is given for it, but it is no
expression that could be replaced. -/
theorem compile_substitution_ne_of_openTable :
    let σ := values.substitution
    (∀ name, ¬ node.Mentions (.tableParam name)) ∧ (∀ name, node ≠ .expr (.param name)) ∧
      (∀ m, ¬ TransGen ((settings.supplied values).Leads {}) m m) ∧
      node.compile {} (settings.supplied values) = .ok "SELECT (-(SELECT * FROM orders))" ∧
      (node.substitute σ).compile (Store.substitute σ {}) settings.unsupplied =
        .error (.missingParam "source") := by
  refine ⟨?_, nofun, OpenTable.acyclic, rfl, rfl⟩
  intro name mentioned
  cases mentioned with
  | child listed inner =>
      cases List.mem_singleton.mp listed
      cases inner with
      | param same => cases same
      | child none _ => cases none

end SqlQuery
