import Mathlib.Data.Set.Finite.Basic
import Mathlib.Order.Filter.AtTopBot.Basic
import Mathlib.Order.Filter.Finite
import SqlQuery.Proofs.Render.Stability

/-!
Types and texts. A node is written out exactly if everything that is met on the way can be written,
and types are not among it. Main statement: an expression whose types do not fit, and a relation
that selects or filters by it, are stopped only by what stops them without regard to types.
-/

open Filter (atTop)

namespace SqlQuery

/-! Nodes that can be written. -/

namespace Settings

variable {store : Store} {settings : Settings}

section

variable (store settings)

/-- Whatever is met in a node can be written to its end. -/
def Completes (node : Node) : Prop :=
  ∀ step ∈ node.trace, settings.Passes store (step.scope []) step.event

end

theorem Passes.eventually {scope : Scope} {event : Event}
    (passes : settings.Passes store scope event) :
    ∀ᶠ depth in atTop, settings.judge store (settings.failure store depth) scope event = none := by
  induction passes with
  | column name covered =>
      apply Filter.Eventually.of_forall
      intro depth
      exact if_neg (by omega)
  | @link scope m node name behind _ ih =>
      -- the node behind the link has finitely many steps, so one number of links is enough for all
      have all := (Filter.eventually_all_finite (List.finite_toSet node.trace)).mpr ih
      obtain ⟨enough, written⟩ := Filter.eventually_atTop.mp all
      apply Filter.eventually_atTop.mpr
      refine ⟨enough + 1, ?_⟩
      intro depth long
      obtain ⟨depth, rfl⟩ : ∃ inner, depth = inner + 1 := ⟨depth - 1, by omega⟩
      rw [judge_link behind]
      exact firstError_eq_none_iff.mpr (written depth (by omega))

/-- Fewer aliases stop nothing that passed among more of them. -/
theorem Passes.of_fewer {scope fewer : Scope} {event : Event}
    (passes : settings.Passes store scope event)
    (covered : ∀ owner, fewer.covering owner ≤ scope.covering owner) :
    settings.Passes store fewer event := by
  induction passes generalizing fewer with
  | @column scope owner name once =>
      exact .column name (Nat.lt_of_le_of_lt (covered owner) once)
  | @link scope m node name behind _ ih =>
      apply Passes.link name behind
      intro step listed
      apply ih step listed
      intro owner
      rw [Step.scope, Step.scope]
      split
      · exact Nat.le_refl _
      · rw [Scope.covering, Scope.covering, List.countP_append, List.countP_append]
        exact Nat.add_le_add_right (covered owner) _

end Settings

theorem Node.compile_eq_ok_iff_completes {store : Store} {settings : Settings} {node : Node} :
    (∃ sql, node.compile store settings = .ok sql) ↔ settings.Completes store node := by
  constructor
  · rintro ⟨sql, compiled⟩
    cases failed : settings.failure store (settings.depth store + 1) [] node with
    | none => exact Settings.passes_of_failure failed
    | some e =>
        have impossible := Node.compileWithin_eq_error_iff_failure.mpr failed
        rw [← Node.compile, compiled] at impossible
        cases impossible
  · intro completes
    have all := (Filter.eventually_all_finite (List.finite_toSet node.trace)).mpr
      fun step listed => (completes step listed).eventually
    obtain ⟨depth, written⟩ := all.exists
    cases compiled : node.compileWithin depth store settings with
    | ok sql => exact ⟨sql, Node.compile_eq_ok_of_compileWithin compiled⟩
    | error e =>
        have failed := Node.compileWithin_eq_error_iff_failure.mp compiled
        have fine : settings.failure store (depth + 1) [] node = none :=
          firstError_eq_none_iff.mpr written
        rw [fine] at failed
        cases failed

/-! The errors of writing. -/

/-- The error says that types, names or numbers of columns do not fit. -/
def Error.IsTypeError : Error → Prop
  | typeMismatch .. => True
  | unnamedColumn .. => True
  | widthMismatch .. => True
  | invalidScale .. => True
  | _ => False

/-- The event does not stop the writing for the sake of types. -/
def Event.IgnoresTypes : Event → Prop
  | stop e _ => ¬ e.IsTypeError
  | _ => True

def Step.IgnoreTypes (steps : List Step) : Prop :=
  ∀ step ∈ steps, step.event.IgnoresTypes

namespace Step.IgnoreTypes

theorem append {first second : List Step} (left : IgnoreTypes first)
    (right : IgnoreTypes second) : IgnoreTypes (first ++ second) :=
  List.forall_mem_append.mpr ⟨left, right⟩

theorem flatMap {α : Type} {trace : α → List Step} {nodes : List α}
    (each : ∀ node ∈ nodes, IgnoreTypes (trace node)) : IgnoreTypes (nodes.flatMap trace) :=
  List.forall_mem_flatMap.mpr each

theorem map {f : Step → Step} {steps : List Step} (ignores : IgnoreTypes steps)
    (same : ∀ step, (f step).event = step.event) : IgnoreTypes (steps.map f) := by
  rw [IgnoreTypes, List.forall_mem_map]
  intro step listed
  rw [same]
  exact ignores step listed

theorem singleton {event : Event} (ignores : event.IgnoresTypes) : IgnoreTypes [{ event }] :=
  List.forall_mem_singleton.mpr ignores

theorem optional {α : Type} {trace : α → List Step} {node : Option α}
    (given : ∀ a, node = some a → IgnoreTypes (trace a)) :
    IgnoreTypes (node.toList.flatMap trace) :=
  flatMap fun a listed => given a (Option.mem_toList.mp listed)

theorem selected {columns : Option (List Expr)}
    (given : ∀ es, columns = some es → ∀ e ∈ es, IgnoreTypes e.trace) :
    IgnoreTypes ((columns.getD []).flatMap Expr.trace) := by
  cases columns with
  | none => exact List.forall_mem_nil _
  | some es => exact flatMap (given es rfl)

theorem select {s : Select}
    (parts : s.Parts (fun e => IgnoreTypes e.trace) (fun r => IgnoreTypes r.trace)) :
    IgnoreTypes (Relation.select s).trace := by
  simp only [Relation.trace_select, Relation.traceOfOptional_eq_flatMap,
    Expr.traceOfOptional_eq_flatMap, Expr.traceOfAll_eq_flatMap]
  exact (selected parts.columns).append <| (optional parts.table).append <|
    (flatMap parts.filters).append <| (flatMap parts.groupBy).append <|
      (flatMap parts.having).append (flatMap parts.orderBy)

theorem induction :
    QueryInduction (fun e => IgnoreTypes e.trace) (fun r => IgnoreTypes r.trace) where
  value v := List.forall_mem_nil _
  code sql := List.forall_mem_nil _
  column c := singleton trivial
  placeholder id name := singleton trivial
  aliased e name ignores := ignores
  concat items separator ignores := by
    rw [Expr.trace]
    split
    · exact singleton id
    · rw [Expr.traceOfAll_eq_flatMap]
      exact flatMap ignores
  countAll distinct := List.forall_mem_nil _
  count e distinct ignores := ignores
  call function arguments ignores := by
    rw [Expr.trace, Expr.traceOfAll_eq_flatMap]
    exact flatMap ignores
  case branches otherwise ignores otherwiseIgnores := by
    rw [Expr.trace]
    split
    · exact singleton id
    · rw [Expr.traceOfBranches_eq_flatMap, Expr.traceOfElse_eq_flatMap, List.flatMap_assoc]
      refine append (flatMap ?_) (optional otherwiseIgnores)
      intro branch listed
      obtain ⟨condition, result⟩ := ignores branch listed
      exact flatMap (List.forall_mem_cons.mpr ⟨condition, List.forall_mem_singleton.mpr result⟩)
  isDistinctFrom left right leftIgnores rightIgnores := by
    rw [Expr.trace]
    exact leftIgnores.append rightIgnores
  binary operator arguments ignores := by
    rw [Expr.trace, Expr.traceOfAll_eq_flatMap]
    exact flatMap ignores
  negate e ignores := ignores
  isIn e list ignores listIgnores := by
    rw [Expr.trace, Expr.traceOfAll_eq_flatMap]
    exact ignores.append (flatMap listIgnores)
  cast e type ignores := ignores
  random := List.forall_mem_nil _
  currentTimestamp := List.forall_mem_nil _
  param name := singleton trivial
  subquery r ignores := ignores
  table t := List.forall_mem_nil _
  tableAlias id source name ignores := ignores
  join id sources kind on columns sourcesIgnore onIgnores columnsIgnore := by
    rw [Relation.trace, Relation.traceOfAll_eq_flatMap, Expr.traceOfAll_eq_flatMap,
      Expr.traceOfOptional_eq_flatMap]
    exact ((flatMap sourcesIgnore).append
      ((flatMap onIgnores).append (selected columnsIgnore))).map (Step.event_within _)
  grouping id table keys values having tableIgnores _ keysIgnore valuesIgnore havingIgnores := by
    intro step listed
    have exprs : ∀ e ∈ keys ++ values ++ having, IgnoreTypes e.trace :=
      List.forall_mem_append.mpr
        ⟨List.forall_mem_append.mpr ⟨keysIgnore, valuesIgnore⟩, havingIgnores⟩
    rcases Relation.mem_trace_grouping listed with inExprs | inTable
    · exact flatMap exprs step inExprs
    · exact tableIgnores step inTable
  setOperation id operator left right leftIgnores rightIgnores := by
    rw [Relation.trace]
    exact leftIgnores.append rightIgnores
  select s parts := select parts
  cte id source name params ignores := by
    rw [Relation.trace]
    exact ignores.map fun _ => rfl
  tableParam p := singleton trivial

end Step.IgnoreTypes

theorem Node.trace_ignoresTypes (node : Node) : Step.IgnoreTypes node.trace := by
  cases node with
  | expr e => exact Step.IgnoreTypes.induction.expr e
  | relation r => exact Step.IgnoreTypes.induction.relation r
  | statement s =>
      cases s with
      | create s =>
          obtain ⟨⟨_, path, schema⟩, source, _, _⟩ := s
          cases source with
          | some source => exact Step.IgnoreTypes.induction.relation source
          | none =>
              cases schema with
              | some schema => exact List.forall_mem_nil _
              | none => exact .singleton id
      | insert s =>
          obtain ⟨table, source, columns⟩ := s
          cases source with
          | rows rows => exact List.forall_mem_nil _
          | query r => exact Step.IgnoreTypes.induction.relation r
      | explain query => exact Step.IgnoreTypes.induction.relation query
      | drop s => exact List.forall_mem_nil _
      | truncate t => exact List.forall_mem_nil _
      | commit => exact List.forall_mem_nil _

namespace Settings

variable {store : Store} {settings : Settings}

theorem not_isTypeError_of_failure {depth : Nat} {scope : Scope} {node : Node} {e : Error}
    (failed : settings.failure store depth scope node = some e) : ¬ e.IsTypeError := by
  induction depth generalizing scope node with
  | zero =>
      cases failed
      exact id
  | succ depth ih =>
      obtain ⟨before, step, after, trace, failed, -⟩ := firstError_eq_some_iff.mp failed
      have ignores : step.event.IgnoresTypes := node.trace_ignoresTypes step (by simp [trace])
      cases event : step.event with
      | column owner name =>
          rw [event, judge] at failed
          split at failed
          · cases failed
            exact id
          · cases failed
      | link m name =>
          rw [event, judge] at failed
          split at failed
          · exact ih failed
          · cases failed
            cases m <;> exact id
      | stop e' ended =>
          rw [event] at failed ignores
          cases failed
          exact ignores

end Settings

theorem Node.compile_ne_typeError {store : Store} {settings : Settings} {node : Node} {e : Error}
    (failed : node.compile store settings = .error e) : ¬ e.IsTypeError :=
  Settings.not_isTypeError_of_failure (Node.compileWithin_eq_error_iff_failure.mp failed)

/-! Expressions inside of relations. -/

/-- A node that is an expression, or a relation that has it among its columns, predicates, keys or
in its order. -/
inductive Node.Uses (e : Expr) : Node → Prop
  | itself : Uses e (.expr e)
  | clause {r : Relation} : e ∈ r.exprs → Uses e (.relation r)

theorem Step.within_nil (step : Step) : step.within [] = step := by
  rw [within]
  split
  · rfl
  · rfl

/-- What is met in an expression is met in the relation too, under the aliases of a join. -/
theorem Relation.exists_within_trace {r : Relation} {e : Expr} (listed : e ∈ r.exprs) :
    ∃ added, ∀ step ∈ e.trace, step.within added ∈ r.trace := by
  cases r with
  | join j =>
      obtain ⟨id, sources, kind, on, columns⟩ := j
      refine ⟨joinScope sources, ?_⟩
      intro step met
      have inside : step ∈ (on ++ columns.getD []).flatMap Expr.trace :=
        List.mem_flatMap.mpr ⟨e, listed, met⟩
      rw [Relation.trace, Expr.traceOfAll_eq_flatMap, Expr.traceOfOptional_eq_flatMap,
        ← List.flatMap_append]
      exact List.mem_map_of_mem (List.mem_append_right _ inside)
  | grouping g =>
      obtain ⟨id, table, keys, values, having⟩ := g
      refine ⟨[], ?_⟩
      intro step met
      have inside : step ∈ (keys ++ values ++ having).flatMap Expr.trace :=
        List.mem_flatMap.mpr ⟨e, listed, met⟩
      simp only [List.flatMap_append, List.mem_append] at inside
      rw [Step.within_nil]
      rcases table.plain_or_nested with ⟨s, rfl, plain⟩ | nested
      · rw [Relation.trace_grouping_plain id s keys values having plain]
        simp only [Expr.traceOfAll_eq_flatMap, List.mem_append]
        tauto
      · rw [Relation.trace_grouping_nested id table keys values having nested]
        simp only [Expr.traceOfAll_eq_flatMap, List.mem_append]
        tauto
  | select s =>
      refine ⟨[], ?_⟩
      intro step met
      have inside : step ∈ s.exprs.flatMap Expr.trace := List.mem_flatMap.mpr ⟨e, listed, met⟩
      simp only [SelectOf.exprs, List.flatMap_append, List.mem_append] at inside
      rw [Step.within_nil, Relation.trace_select]
      simp only [Expr.traceOfAll_eq_flatMap, Expr.traceOfOptional_eq_flatMap, List.mem_append]
      tauto
  | _ => cases listed

theorem Settings.Completes.of_uses {store : Store} {settings : Settings} {node : Node} {e : Expr}
    (completes : settings.Completes store node) (uses : node.Uses e) :
    settings.Completes store (.expr e) := by
  cases uses with
  | itself => exact completes
  | clause listed =>
      obtain ⟨added, inside⟩ := Relation.exists_within_trace listed
      intro step met
      have passes := completes _ (inside step met)
      rw [Step.event_within, Step.scope_within] at passes
      -- the relation brings only more aliases
      apply passes.of_fewer
      intro owner
      rw [Step.scope, Step.scope]
      split
      · exact Nat.le_refl _
      · simp [Scope.covering]

structure Node.Mistyped (store : Store) (node : Node) (e : Expr) (error : Error) : Prop where
  uses : node.Uses e
  type : e.type store = .error error
  about : error.IsTypeError

/-- Where the types of an expression do not fit, the expression and the relations that use it have
an error if and only if something in them, apart from types, cannot be written, and the error is
another one. A relation has an SQL text only if the expression has one. -/
theorem Node.Mistyped.aborts_iff {store : Store} {node : Node} {e : Expr} {error : Error}
    (mistyped : node.Mistyped store e error) (settings : Settings) :
    ((∃ failure, node.compile store settings = .error failure ∧ failure ≠ .unending) ↔
      ¬ settings.Completes store node ∧ ¬ settings.Loops store node) ∧
    node.compile store settings ≠ .error error ∧
    ((∃ sql, node.compile store settings = .ok sql) →
      ∃ sql, (Node.expr e).compile store settings = .ok sql) := by
  refine ⟨?_, fun failed => Node.compile_ne_typeError failed mistyped.about, ?_⟩
  · rw [← Node.compile_eq_ok_iff_completes, ← Node.compile_eq_unending_iff]
    cases node.compile store settings with
    | ok sql => simp
    | error failure => simp
  · simp only [Node.compile_eq_ok_iff_completes]
    exact fun completes => completes.of_uses mistyped.uses

/-! Labels of orders: their amount, or else a text. -/

namespace OrderLabels

def orders : Relation := .table ⟨⟨0⟩, .orders, some { columns := [("amount", .integer)] }⟩

def store : Store :=
  { relations := 2, placeholders := 1, bindings := [(⟨0⟩, .column ⟨orders, "amount"⟩)] }

def label : Expr :=
  .case ⟨[⟨.value (.bool true), .placeholder ⟨0⟩ "amount"⟩], some (.value (.text "none"))⟩

def labels : Relation := .select { id := ⟨1⟩, table := some orders, columns := some [label] }

def labelled : Relation := .select { id := ⟨2⟩, table := some orders, filters := [label] }

/-- The amount, a text and a parameter that is not supplied. -/
def total : Expr := .binary .add [.placeholder ⟨0⟩ "amount", .value (.text "none"), .param "fee"]

def totals : Relation := .select { id := ⟨3⟩, table := some orders, columns := some [total] }

end OrderLabels

open OrderLabels in
theorem aborts_of_totals :
    (Node.relation totals).Mistyped store total (.typeMismatch
      "Expected all args to have the same type" [.semantic .integer, .literal .text]) ∧
    (∃ failure, (Node.relation totals).compile store { dialect := .duckDB } = .error failure ∧
      failure ≠ .unending) ∧
    ¬ Settings.Completes store { dialect := .duckDB } (.relation totals) := by
  have mistyped : (Node.relation totals).Mistyped store total (.typeMismatch
      "Expected all args to have the same type" [.semantic .integer, .literal .text]) :=
    ⟨.clause (by simp [totals, Relation.exprs, SelectOf.exprs]), rfl, trivial⟩
  have failed : (Node.relation totals).compile store { dialect := .duckDB } =
      .error (.missingParam "fee") := rfl
  have aborts : ∃ failure, (Node.relation totals).compile store { dialect := .duckDB } =
      .error failure ∧ failure ≠ .unending := ⟨_, failed, by simp⟩
  exact ⟨mistyped, aborts, ((mistyped.aborts_iff { dialect := .duckDB }).1.mp aborts).1⟩

open OrderLabels in
/-- The amount of an order is a number and the other label a text, and there is SQL for the label
and for the orders that select it or are filtered by it. -/
theorem mismatch_compiles_of_labels :
    label.type store = .error (.typeMismatch "Non-matching types in when"
      [.semantic .integer, .literal .text]) ∧
    (Node.expr label).compile store { dialect := .duckDB } =
      .ok "SELECT CASE WHEN TRUE THEN \"amount\" ELSE 'none' END" ∧
    (Node.relation labels).compile store { dialect := .duckDB } =
      .ok "SELECT CASE WHEN TRUE THEN \"amount\" ELSE 'none' END FROM \"orders\"" ∧
    (Node.relation labelled).compile store { dialect := .duckDB } =
      .ok "SELECT * FROM \"orders\" WHERE CASE WHEN TRUE THEN \"amount\" ELSE 'none' END" := by
  refine ⟨rfl, ?_, ?_, ?_⟩
  · decide +kernel
  · decide +kernel
  · decide +kernel

end SqlQuery
