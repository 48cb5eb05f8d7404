import Mathlib.Data.Fintype.BigOperators
import Mathlib.Data.Fintype.Pigeonhole
import SqlQuery.Dialect.DuckDB
import SqlQuery.Proofs.Render.Approximation
import SqlQuery.Proofs.Render.Events

/-!
When the writing of a node comes to an end. It goes on for ever if it comes back to a node that is
still being written and no column is covered in another way by then, and in no other case: there
are only so many nodes behind placeholders and parameters, and ways to cover their columns.
-/

open Relation (ReflTransGen TransGen)

namespace SqlQuery

/-- A node that is being written, and the aliases in scope around it. -/
structure Visit where
  node : Node
  scope : Scope

namespace Settings

section

variable (store : Store) (settings : Settings)

/-- What is met there can be written to its end. -/
inductive Passes : Scope → Event → Prop
  | column {scope : Scope} {owner : RelationId} (name : String) :
      scope.covering owner < 2 → Passes scope (.column owner name)
  | link {scope : Scope} {m : Mention} {node : Node} (name : String) :
      settings.behind store m = some node →
      (∀ step ∈ node.trace, Passes (step.scope scope) step.event) → Passes scope (.link m name)

/-- The first node comes to a placeholder or parameter that stands for the second one. -/
def Opens (p q : Visit) : Prop :=
  ∃ before step after m name, p.node.trace = before ++ step :: after ∧
    (∀ earlier ∈ before, settings.Passes store (earlier.scope p.scope) earlier.event) ∧
    step.event = .link m name ∧ settings.behind store m = some q.node ∧
    step.scope p.scope = q.scope

/-- The columns behind placeholders and parameters are all covered in the same way: by no alias,
by one, or by several. -/
def Alike (s s' : Scope) : Prop :=
  ∀ owner ∈ settings.owners store, min 2 (s.covering owner) = min 2 (s'.covering owner)

/-- A node is written again inside itself, with its columns covered in the same way. -/
def Loops (node : Node) : Prop :=
  ∃ p q, ReflTransGen (settings.Opens store) ⟨node, []⟩ p ∧ TransGen (settings.Opens store) p q ∧
    q.node = p.node ∧ settings.Alike store p.scope q.scope

end

variable {store : Store} {settings : Settings}

/-! What an event needs. -/

theorem passes_of_judge {inside : Scope → Node → Option Error} {scope : Scope} {event : Event}
    (fine : settings.judge store inside scope event = none)
    (within : ∀ scope node, inside scope node = none →
      ∀ step ∈ node.trace, settings.Passes store (step.scope scope) step.event) :
    settings.Passes store scope event := by
  cases event with
  | column owner name =>
      rw [judge, ite_eq_right_iff] at fine
      exact .column name (by simpa using fine)
  | link m name =>
      rw [judge] at fine
      split at fine
      · next node behind => exact .link name behind (within scope node fine)
      · cases fine
  | stop e ended => cases fine

theorem passes_of_failure {depth : Nat} {scope : Scope} {node : Node}
    (fine : settings.failure store depth scope node = none) :
    ∀ step ∈ node.trace, settings.Passes store (step.scope scope) step.event := by
  induction depth generalizing scope node with
  | zero => cases fine
  | succ depth ih =>
      intro step listed
      exact passes_of_judge (firstError_eq_none_iff.mp fine step listed) fun _ _ => ih

theorem Passes.eq_unending {scope : Scope} {event : Event}
    (passes : settings.Passes store scope event) (depth : Nat) {e : Error}
    (failed : settings.judge store (settings.failure store depth) scope event = some e) :
    e = .unending := by
  -- What passes has no error of its own at any depth, so only its links can have run out.
  induction passes generalizing depth with
  | column name covered =>
      rw [judge, if_neg (by omega)] at failed
      cases failed
  | link name behind _ ih =>
      rw [judge_link behind] at failed
      cases depth with
      | zero => exact (Option.some.inj failed).symm
      | succ depth =>
          obtain ⟨before, step, after, trace, failed, _⟩ := firstError_eq_some_iff.mp failed
          exact ih step (by simp [trace]) depth failed

theorem link_of_judge {inside : Scope → Node → Option Error} {scope : Scope} {event : Event}
    (failed : settings.judge store inside scope event = some .unending) :
    ∃ m name node, event = .link m name ∧ settings.behind store m = some node ∧
      inside scope node = some .unending := by
  cases event with
  | column owner name =>
      rw [judge] at failed
      split at failed <;> cases failed
  | link m name =>
      rw [judge] at failed
      split at failed
      · next node behind => exact ⟨m, name, node, rfl, behind, failed⟩
      · cases m <;> cases failed
  | stop e ended => exact absurd (Option.some.inj failed) ended

/-! Chains of links. -/

section

variable (store settings)

/-- The writing of a node follows a chain of so many links. -/
def Runs (depth : Nat) (p : Visit) : Prop :=
  settings.failure store depth p.scope p.node = some .unending

end

variable {depth : Nat} {p q : Visit}

theorem Runs.exists_opens (runs : settings.Runs store (depth + 1) p) :
    ∃ q, settings.Opens store p q ∧ settings.Runs store depth q := by
  obtain ⟨before, step, after, trace, failed, earlier⟩ := firstError_eq_some_iff.mp runs
  obtain ⟨m, name, node, event, behind, inside⟩ := link_of_judge failed
  have passed : ∀ earlier ∈ before,
      settings.Passes store (earlier.scope p.scope) earlier.event := by
    intro step listed
    exact passes_of_judge (earlier step listed) fun _ _ => passes_of_failure
  exact ⟨⟨node, step.scope p.scope⟩,
    ⟨before, step, after, m, name, trace, passed, event, behind, rfl⟩, inside⟩

theorem Runs.of_opens (opens : settings.Opens store p q) (runs : settings.Runs store depth q) :
    settings.Runs store (depth + 1) p := by
  obtain ⟨before, step, after, m, name, trace, passed, event, behind, scope⟩ := opens
  have here : settings.judge store (settings.failure store depth) (step.scope p.scope)
      step.event = some .unending := by
    rw [event, judge_link behind, scope]
    exact runs
  rw [Runs, failure, trace, firstError_append]
  cases first : firstError (settings.judge store (settings.failure store depth)) p.scope before with
  | none =>
      rw [Option.none_or]
      exact firstError_eq_some_iff.mpr ⟨[], step, after, rfl, here, nofun⟩
  | some e =>
      obtain ⟨_, step, _, same, failed, _⟩ := firstError_eq_some_iff.mp first
      rw [(passed step (by simp [same])).eq_unending depth failed]
      rfl

theorem Runs.of_succ (runs : settings.Runs store (depth + 1) p) : settings.Runs store depth p := by
  induction depth generalizing p with
  | zero => rfl
  | succ depth ih =>
      obtain ⟨q, opens, runs⟩ := runs.exists_opens
      exact .of_opens opens (ih runs)

theorem Runs.of_transGen (path : TransGen (settings.Opens store) p q)
    (runs : settings.Runs store depth q) : settings.Runs store (depth + 1) p := by
  induction path using TransGen.head_induction_on with
  | single opens => exact .of_opens opens runs
  | head opens _ ih => exact .of_opens opens ih.of_succ

theorem Runs.of_reflTransGen (path : ReflTransGen (settings.Opens store) p q)
    (runs : settings.Runs store depth q) : settings.Runs store depth p := by
  rcases Relation.reflTransGen_iff_eq_or_transGen.mp path with rfl | path
  · exact runs
  · exact (runs.of_transGen path).of_succ

theorem Runs.exists_chain (runs : settings.Runs store depth p) :
    ∃ chain : Nat → Visit, chain 0 = p ∧
      ∀ i < depth, settings.Opens store (chain i) (chain (i + 1)) := by
  induction depth generalizing p with
  | zero => exact ⟨fun _ => p, rfl, fun i lt => absurd lt (Nat.not_lt_zero i)⟩
  | succ depth ih =>
      obtain ⟨q, opens, runs⟩ := runs.exists_opens
      obtain ⟨chain, rfl, links⟩ := ih runs
      refine ⟨fun i => i.casesOn p chain, rfl, ?_⟩
      intro i lt
      cases i with
      | zero => exact opens
      | succ i => exact links i (by omega)

/-! Scopes that cover columns alike. -/

theorem Alike.step {s s' : Scope} (alike : settings.Alike store s s') (step : Step) :
    settings.Alike store (step.scope s) (step.scope s') := by
  intro owner listed
  have same := alike owner listed
  rw [Step.scope, Step.scope]
  split
  · rfl
  · simp only [Scope.covering, List.countP_append] at same ⊢
    omega

theorem mem_values_of_behind {m : Mention} {node : Node}
    (behind : settings.behind store m = some node) : node ∈ settings.values store := by
  have given : ∀ name, settings.params.bind (·.lookup name) = some node →
      node ∈ settings.values store := by
    intro name found
    obtain ⟨params, same, found⟩ := Option.bind_eq_some_iff.mp found
    obtain ⟨before, after, listed, _⟩ := List.lookup_eq_some_iff.mp found
    simp [values, same, listed]
  cases m with
  | placeholder id =>
      obtain ⟨e, found, rfl⟩ := Option.map_eq_some_iff.mp behind
      obtain ⟨before, after, listed, _⟩ := List.lookup_eq_some_iff.mp found
      simp [values, listed]
  | param name => exact given name behind
  | tableParam name => exact given name behind

theorem failure_congr {node : Node} {s s' : Scope} (listed : node ∈ settings.values store)
    (alike : settings.Alike store s s') (depth : Nat) :
    settings.failure store depth s node = settings.failure store depth s' node := by
  induction depth generalizing node s s' with
  | zero => rfl
  | succ depth ih =>
      apply firstError_congr
      intro step inTrace
      have same := alike.step step
      have belongs := Node.belongs_of_mem_trace inTrace
      cases event : step.event with
      | column owner name =>
          rw [event] at belongs
          have covered := same owner (List.mem_flatMap.mpr ⟨node, listed, belongs⟩)
          rw [judge, judge]
          congr 1
          apply propext
          omega
      | link m name =>
          rw [judge, judge]
          cases behind : settings.behind store m with
          | none => rfl
          | some node => exact ih (mem_values_of_behind behind) same
      | stop e ended => rfl

/-! Coming back. -/

theorem Opens.mem_values (opens : settings.Opens store p q) : q.node ∈ settings.values store := by
  obtain ⟨_, _, _, _, _, _, _, _, behind, _⟩ := opens
  exact mem_values_of_behind behind

theorem Loops.runs {node : Node} (loops : settings.Loops store node) (depth : Nat) :
    settings.Runs store depth ⟨node, []⟩ := by
  obtain ⟨p, q, start, path, same, alike⟩ := loops
  have listed : p.node ∈ settings.values store := by
    obtain ⟨r, _, opens⟩ := TransGen.tail'_iff.mp path
    exact same ▸ opens.mem_values
  apply Runs.of_reflTransGen start
  -- A round uses up a link at least, and then the same is left to do as at its start.
  induction depth with
  | zero => rfl
  | succ depth ih =>
      apply Runs.of_transGen path
      rw [Runs, same, ← failure_congr listed alike]
      exact ih

/-- Among more visits than there are nodes and ways to cover their columns, one repeats another. -/
theorem exists_repeat (visits : Fin (settings.depth store + 1) → Visit)
    (listed : ∀ i, (visits i).node ∈ settings.values store) :
    ∃ i j, i < j ∧ (visits j).node = (visits i).node ∧
      settings.Alike store (visits i).scope (visits j).scope := by
  -- A visit is told by where its node is listed, and for each owner by 0, 1 or 2 for several.
  choose index indexed using fun i => List.get_of_mem (listed i)
  let covered (i : Fin (settings.depth store + 1)) (k : Fin (settings.owners store).length) :
      Fin 3 :=
    ⟨min 2 ((visits i).scope.covering ((settings.owners store).get k)), by omega⟩
  have fewer : Fintype.card
      (Fin (settings.values store).length × (Fin (settings.owners store).length → Fin 3)) <
        Fintype.card (Fin (settings.depth store + 1)) := by
    simp only [Fintype.card_prod, Fintype.card_fun, Fintype.card_fin]
    exact Nat.lt_succ_self (settings.depth store)
  obtain ⟨i, j, distinct, same⟩ :=
    Fintype.exists_ne_map_eq_of_card_lt (fun i => (index i, covered i)) fewer
  obtain ⟨sameIndex, sameCover⟩ := Prod.mk.inj same
  have sameNode : (visits j).node = (visits i).node := by
    rw [← indexed i, ← indexed j, sameIndex]
  have alike : settings.Alike store (visits i).scope (visits j).scope := by
    intro owner inOwners
    obtain ⟨k, rfl⟩ := List.get_of_mem inOwners
    exact Fin.val_eq_of_eq (congrFun sameCover k)
  rcases lt_or_gt_of_ne distinct with lt | lt
  · exact ⟨i, j, lt, sameNode, alike⟩
  · exact ⟨j, i, lt, sameNode.symm, fun owner inOwners => (alike owner inOwners).symm⟩

theorem loops_of_runs {node : Node} (long : settings.depth store < depth)
    (runs : settings.Runs store depth ⟨node, []⟩) : settings.Loops store node := by
  obtain ⟨chain, start, links⟩ := runs.exists_chain
  obtain ⟨i, j, lt, same, alike⟩ := exists_repeat (fun i => chain (i + 1)) fun i =>
    (links i (by omega)).mem_values
  have path : ∀ i j, i < j → j ≤ depth → TransGen (settings.Opens store) (chain i) (chain j) := by
    intro i j lt le
    induction lt with
    | refl => exact .single (links i (by omega))
    | step _ ih => exact (ih (by omega)).tail (links _ (by omega))
  refine ⟨chain (i + 1), chain (j + 1), ?_, path _ _ (by omega) (by omega), same, alike⟩
  rw [← start]
  exact (path 0 (i + 1) (by omega) (by omega)).to_reflTransGen

/-! References that lead nowhere back. -/

theorem exists_leads_of_transGen (path : TransGen (settings.Opens store) p q) :
    ∃ m n, p.node.Mentions m ∧ ReflTransGen (settings.Leads store) m n ∧
      settings.behind store n = some q.node := by
  have mentions : ∀ {p q}, settings.Opens store p q →
      ∃ m, p.node.Mentions m ∧ settings.behind store m = some q.node := by
    rintro p q ⟨before, step, after, m, name, trace, _, event, behind, _⟩
    have listed : step ∈ p.node.trace := by simp [trace]
    have belongs := Node.belongs_of_mem_trace listed
    rw [event] at belongs
    exact ⟨m, belongs, behind⟩
  induction path with
  | single opens =>
      obtain ⟨m, mentioned, behind⟩ := mentions opens
      exact ⟨m, m, mentioned, .refl, behind⟩
  | tail _ opens ih =>
      obtain ⟨m, n, mentioned, leads, behind⟩ := ih
      obtain ⟨k, next, behindNext⟩ := mentions opens
      exact ⟨m, k, mentioned, leads.tail ⟨_, behind, next⟩, behindNext⟩

theorem Acyclic.not_loops {node : Node} (acyclic : settings.Acyclic store node) :
    ¬ settings.Loops store node := by
  rintro ⟨p, q, start, path, same, _⟩
  obtain ⟨m, n, mentioned, leads, behind⟩ := exists_leads_of_transGen path
  have back : settings.Leads store n m := ⟨q.node, behind, same ▸ mentioned⟩
  have reached : settings.Reaches store node m := by
    rcases Relation.reflTransGen_iff_eq_or_transGen.mp start with rfl | start
    · exact reaches_of_mentions mentioned
    · obtain ⟨first, last, inNode, path, behind⟩ := exists_leads_of_transGen start
      exact ⟨first, inNode, path.tail ⟨p.node, behind, mentioned⟩⟩
  exact acyclic m reached (.tail' leads back)

end Settings

theorem Node.compileWithin_eq_unending_iff {depth : Nat} {store : Store} {settings : Settings}
    {node : Node} :
    node.compileWithin depth store settings = .error .unending ↔
      settings.Runs store (depth + 1) ⟨node, []⟩ :=
  Node.compileWithin_eq_error_iff_failure

theorem Node.compile_eq_unending_iff {store : Store} {settings : Settings} {node : Node} :
    node.compile store settings = .error .unending ↔ settings.Loops store node := by
  rw [Node.compile, Node.compileWithin_eq_unending_iff]
  exact ⟨Settings.loops_of_runs (Nat.lt_succ_self _), fun loops => loops.runs _⟩

/-- A node can be written along finitely many links, to SQL or to an error, if and only if it does
not loop, and however many links it takes, it is the same SQL or error. -/
theorem Node.compile_returns_iff (store : Store) (settings : Settings) (node : Node) :
    ((∃ depth, node.compileWithin depth store settings ≠ .error .unending) ↔
      ¬ settings.Loops store node) ∧
    (∀ depth, node.compileWithin depth store settings = .error .unending ∨
      node.compileWithin depth store settings = node.compile store settings) ∧
    (settings.Acyclic store node → ¬ settings.Loops store node) := by
  refine ⟨⟨?_, ?_⟩, ?_, Settings.Acyclic.not_loops⟩
  · rintro ⟨depth, ended⟩ loops
    exact ended (Node.compileWithin_eq_unending_iff.mpr (loops.runs _))
  · intro straight
    exact ⟨settings.depth store, fun unending =>
      straight (Node.compile_eq_unending_iff.mp unending)⟩
  · intro depth
    by_cases ended : node.compileWithin depth store settings = .error .unending
    · exact .inl ended
    · right
      have compiled : node.compile store settings ≠ .error .unending := by
        intro unending
        have loops := Node.compile_eq_unending_iff.mp unending
        exact ended (Node.compileWithin_eq_unending_iff.mpr (loops.runs _))
      rcases Nat.le_total depth (settings.depth store) with le | le
      · exact (Node.compileWithin_of_le le ended).symm
      · exact Node.compileWithin_of_le le compiled

/-! Orders that are joined to themselves until their column cannot be told apart any more. -/

namespace SelfJoin

def orders : Relation := .table ⟨⟨0⟩, .orders, none⟩

def nested : Relation := .join
  { id := ⟨1⟩
    sources := [orders]
    kind := .inner
    on := [.binary .eq [.column ⟨orders, "id"⟩, .subquery (.param ⟨⟨2⟩, "nested"⟩)]]
    columns := none }

def settings : Settings where
  dialect := .duckDB
  params := some [("nested", .relation nested)]

theorem compile_returns_of_nested :
    (Node.relation nested).compile {} settings = .error (.tooManyAliases "id") ∧
      ¬ settings.Loops {} (.relation nested) := by
  have compiled : (Node.relation nested).compile {} settings = .error (.tooManyAliases "id") := rfl
  have returns := Node.compile_returns_iff {} settings (.relation nested)
  refine ⟨compiled, returns.1.mp ⟨settings.depth {}, ?_⟩⟩
  intro unending
  rw [← Node.compile, compiled] at unending
  cases unending

end SelfJoin

/-! A parameter that is given its own negation. -/

namespace SelfNegation

def settings : Settings where
  dialect := .duckDB
  params := some [("x", .expr (.negate (.param "x")))]

theorem opens (p : Visit) (trace : p.node.trace = [{ event := .link (.param "x") "x" }])
    (scope : p.scope = []) :
    settings.Opens {} p ⟨.expr (.negate (.param "x")), []⟩ := by
  refine ⟨[], { event := .link (.param "x") "x" }, [], .param "x", "x", trace, nofun, rfl, rfl, ?_⟩
  rw [scope]
  rfl

theorem compile_never_returns :
    ¬ ∃ depth, (Node.expr (.param "x")).compileWithin depth {} settings ≠ .error .unending := by
  have loops : settings.Loops {} (.expr (.param "x")) :=
    ⟨⟨.expr (.negate (.param "x")), []⟩, ⟨.expr (.negate (.param "x")), []⟩,
      .single (opens _ rfl rfl), .single (opens _ rfl rfl), rfl, fun _ _ => rfl⟩
  rintro ⟨depth, ended⟩
  exact ended (Node.compileWithin_eq_unending_iff.mpr (loops.runs _))

end SelfNegation

end SqlQuery
