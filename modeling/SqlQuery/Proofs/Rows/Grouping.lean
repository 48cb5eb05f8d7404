import Mathlib.Data.List.Dedup
import Mathlib.Data.List.Perm.Lattice
import SqlQuery.Proofs.Render.GeneratedNames
import SqlQuery.Proofs.Rows.Select

/-!
The rows of a SELECT that may group, and a grouping that is written as one SELECT with the one under
it. Main statement: exactly when this SELECT has all predicates of both and no order of the rows
before the grouping, and gives the rows of the one with the other as its table.
-/

namespace SqlQuery

/-! Groups of rows. -/

/-- What expressions come to on a group of rows, too. -/
structure Aggregation extends Evaluation where
  aggregates : Expr → Bool
  overall : Expr → List Record → Value
  overall_perm : ∀ (e : Expr) {group other : List Record}, group.Perm other →
    overall e group = overall e other
  /-- Where rows agree on an expression that does not count them together, it keeps its value. -/
  overall_of_agree : ∀ (e : Expr) (group : List Record) (v : Value), aggregates e = false →
    group ≠ [] → (∀ record ∈ group, value e record = v) → overall e group = v

namespace Aggregation

variable (A : Aggregation)

def keyValues (keys : List Expr) (record : Record) : List Value :=
  keys.map (A.value · record)

/-- The rows with the same keys, for each of the keys; without keys, all rows. -/
def groups (keys : List Expr) (records : List Record) : List (List Record) :=
  if keys.isEmpty then [records]
  else (records.map (A.keyValues keys)).dedup.map fun values =>
    records.filter (A.keyValues keys · == values)

def meets (having : List Expr) (group : List Record) : Bool :=
  having.all fun e => A.overall e group == .bool true

/-- The row for a group. All columns are those of its first row. -/
def summary : Option (List Expr) → List Record → Record
  | none, group => group.headD []
  | some columns, group =>
      columns.map fun e => ((e.nameIn A.names).getD (A.label e), A.overall e group)

def GroupBefore (orderBy : List Expr) (a b : List Record) : Prop :=
  A.keysLe (orderBy.map (A.overall · a)) (orderBy.map (A.overall · b))

instance (orderBy : List Expr) : DecidableRel (A.GroupBefore orderBy) :=
  fun _ _ => inferInstanceAs (Decidable (A.keysLe _ _ = true))

end Aggregation

/-- The expression that an item of GROUP BY stands for: a number is that of a column. -/
def groupedBy (columns : List Expr) : Expr → Expr
  | .code text => (columns[(keyPositions columns).idxOf text]?).getD (.code text)
  | e => e

namespace SelectOf

variable (A : Aggregation)

def groupKeys (s : Select) : List Expr :=
  s.groupBy.map (groupedBy (s.columns.getD []))

def groupsRows (s : Select) : Bool :=
  !s.groupBy.isEmpty || !s.having.isEmpty || (s.columns.getD []).any A.aggregates

/-- The rows of a SELECT for those of its table. -/
def results (s : Select) (base : List Record) : List Record :=
  if s.groupsRows A then
    let groups := (A.groups s.groupKeys (base.filter (A.satisfies s.filters))).filter
      (A.meets s.having)
    limited s.limit (dedupe s.distinct
      ((groups.insertionSort (A.GroupBefore s.orderBy)).map (A.summary s.columns)))
  else s.rows A.toEvaluation base

end SelectOf

/-! The SELECT of a grouping. -/

namespace GroupingOf

/-- The keys and values as columns, grouped by the keys. -/
def level (g : Grouping) (table : Option Relation) (filters orderBy : List Expr) : Select where
  id := g.id
  table := table
  columns := some g.outputs
  filters := filters
  orderBy := orderBy
  groupBy := (keyPositions g.keys).map .code
  having := g.having

/-- The grouping with what it takes from the SELECT under it. -/
def merged (g : Grouping) (s : Select) : Select :=
  g.level s.table s.filters s.orderBy

/-- The grouping of a relation that stands in the text by itself. -/
def nested (g : Grouping) : Select :=
  g.level (some g.table) [] []

end GroupingOf

theorem length_keyPositions {ε : Type} (keys : List ε) :
    (keyPositions keys).length = keys.length := by
  rw [keyPositions, List.length_map, List.length_range]

theorem nodup_keyPositions {ε : Type} (keys : List ε) : (keyPositions keys).Nodup := by
  apply List.nodup_range.map
  intro m n same
  have names : Draft.generatedName (m + 1) = Draft.generatedName (n + 1) :=
    congrArg ("tmp" ++ ·) same
  exact Nat.succ.inj (Draft.generatedName_injective names)

theorem groupedBy_position {columns : List Expr} {i : Nat} (h : i < columns.length) :
    groupedBy columns (.code (toString (i + 1))) = columns[i] := by
  have inside : i < (keyPositions columns).length := by rwa [length_keyPositions]
  have text : (keyPositions columns)[i] = toString (i + 1) := by
    simp only [keyPositions, List.getElem_map, List.getElem_range]
  have place : (keyPositions columns).idxOf (toString (i + 1)) = i := by
    rw [← text]
    exact (nodup_keyPositions columns).idxOf_getElem i inside
  rw [groupedBy, place, List.getElem?_eq_getElem h, Option.getD_some]

namespace GroupingOf

variable {g : Grouping} {table : Option Relation} {filters orderBy : List Expr}

/-- The numbers in the text are those of the keys. -/
theorem groupKeys_level : (g.level table filters orderBy).groupKeys = g.keys := by
  apply List.ext_getElem
  · simp only [SelectOf.groupKeys, level, List.length_map, length_keyPositions]
  · intro i inside within
    have shown : i < g.outputs.length := by
      rw [outputs, List.length_append]
      omega
    calc (g.level table filters orderBy).groupKeys[i]
      _ = groupedBy g.outputs (.code (toString (i + 1))) := by
          simp only [SelectOf.groupKeys, level, List.getElem_map, keyPositions,
            List.getElem_range, Option.getD_some]
      _ = g.outputs[i] := groupedBy_position shown
      _ = g.keys[i] := List.getElem_append_left within

/-! Its text. -/

section Text

variable (links : Links) (ctx : Context)

theorem renderAll_code (texts : List String) :
    Expr.renderAll links ctx (texts.map .code) = pure texts := by
  induction texts with
  | nil => rfl
  | cons text rest ih =>
      rw [List.map_cons, Expr.renderAll, ih, Expr.render]
      rfl

theorem render_merged {s : Select} (absorbed : g.absorbed? = some s) :
    (Relation.grouping g).render links ctx = (Relation.select (g.merged s)).render links ctx := by
  obtain ⟨id, table, keys, values, having⟩ := g
  obtain ⟨rfl, plain⟩ := eq_of_absorbed absorbed
  rw [Relation.render_grouping_plain _ _ _ _ _ _ _ plain, Relation.render_select]
  simp only [merged, level, outputs, Expr.renderSelected, Expr.renderAll_append, renderAll_code]

end Text

end GroupingOf

/-! Its rows, in any order. -/

namespace Aggregation

variable (A : Aggregation) {records others : List Record}

theorem meets_of_perm (having : List Expr) (same : records.Perm others) :
    A.meets having records = A.meets having others := by
  simp only [meets, A.overall_perm _ same]

theorem summary_of_perm (columns : List Expr) (same : records.Perm others) :
    A.summary (some columns) records = A.summary (some columns) others := by
  simp only [summary, A.overall_perm _ same]

/-- Groups do not depend on the order of the rows. -/
theorem summaries_perm (keys having columns : List Expr) (same : records.Perm others) :
    (((A.groups keys records).filter (A.meets having)).map (A.summary (some columns))).Perm
      (((A.groups keys others).filter (A.meets having)).map (A.summary (some columns))) := by
  cases without : keys.isEmpty with
  | true =>
      simp only [groups, without, if_true, List.filter_cons, A.meets_of_perm having same,
        List.filter_nil]
      split
      · rw [List.map_singleton, List.map_singleton, A.summary_of_perm columns same]
      · exact .refl _
  | false =>
      have keyed := (same.map (A.keyValues keys)).dedup
      have group : ∀ values, (records.filter (A.keyValues keys · == values)).Perm
          (others.filter (A.keyValues keys · == values)) := fun values => same.filter _
      simp only [groups, without, Bool.false_eq_true, if_false, List.filter_map, List.map_map]
      -- a group is met and summed up alike from both lists, so that only the keys are left
      have met : A.meets having ∘ (fun values => records.filter (A.keyValues keys · == values)) =
          A.meets having ∘ fun values => others.filter (A.keyValues keys · == values) :=
        funext fun values => A.meets_of_perm having (group values)
      have summed : A.summary (some columns) ∘
            (fun values => records.filter (A.keyValues keys · == values)) =
          A.summary (some columns) ∘ fun values => others.filter (A.keyValues keys · == values) :=
        funext fun values => A.summary_of_perm columns (group values)
      rw [met, summed]
      exact (keyed.filter _).map _

end Aggregation

namespace GroupingOf

variable (A : Aggregation) (g : Grouping)

/-- Whether the rows of its table are grouped: without keys and predicates, only if a value counts
them together. -/
def groupsRows : Bool :=
  !g.keys.isEmpty || !g.having.isEmpty || g.outputs.any A.aggregates

def summaries (records : List Record) : List Record :=
  if g.groupsRows A then
    ((A.groups g.keys records).filter (A.meets g.having)).map (A.summary (some g.outputs))
  else records.map (A.project (some g.outputs))

theorem summaries_perm {records others : List Record} (same : records.Perm others) :
    (g.summaries A records).Perm (g.summaries A others) := by
  unfold summaries
  split
  · exact A.summaries_perm _ _ _ same
  · exact same.map _

theorem groupsRows_level (table : Option Relation) (filters orderBy : List Expr) :
    (g.level table filters orderBy).groupsRows A = g.groupsRows A := by
  have keys : (keyPositions g.keys).isEmpty = g.keys.isEmpty := by
    rw [Bool.eq_iff_iff, List.isEmpty_iff_length_eq_zero, List.isEmpty_iff_length_eq_zero,
      length_keyPositions]
  simp only [SelectOf.groupsRows, level, List.isEmpty_map, keys, Option.getD_some, groupsRows]

theorem results_level_perm (table : Option Relation) (filters orderBy : List Expr)
    (base : List Record) :
    ((g.level table filters orderBy).results A base).Perm
      (g.summaries A (base.filter (A.satisfies filters))) := by
  rw [SelectOf.results, groupsRows_level, summaries, groupKeys_level]
  split
  · exact (List.perm_insertionSort _ _).map _
  · exact List.perm_insertionSort _ _

theorem results_plain {s : Select} (plain : s.isPlain = true) (none : s.having = [])
    (base : List Record) :
    (s.results A base).Perm (base.filter (A.satisfies s.filters)) := by
  simp only [SelectOf.isPlain, Bool.and_eq_true, Option.isNone_iff_eq_none, List.isEmpty_iff,
    Bool.not_eq_true'] at plain
  obtain ⟨⟨⟨columns, groupBy⟩, limit⟩, distinct⟩ := plain
  have ungrouped : s.groupsRows A = false := by
    simp only [SelectOf.groupsRows, groupBy, none, columns, Option.getD_none, List.isEmpty_nil,
      Bool.not_true, Bool.or_self, List.any_nil]
  rw [SelectOf.results, ungrouped, if_neg Bool.false_ne_true, SelectOf.rows, limit, distinct,
    columns, Evaluation.map_project_none]
  exact List.perm_insertionSort _ _

theorem merged_perm {s : Select} (plain : s.isPlain = true) (none : s.having = [])
    (base : List Record) :
    ((g.merged s).results A base).Perm (g.nested.results A (s.results A base)) := by
  have all : ∀ records : List Record, records.filter (A.satisfies []) = records :=
    fun records => List.filter_eq_self.mpr fun _ _ => rfl
  have outer := g.results_level_perm A (some g.table) [] [] (s.results A base)
  rw [all] at outer
  have whole := g.results_level_perm A s.table s.filters s.orderBy base
  have inner := g.summaries_perm A (results_plain A plain none base)
  exact whole.trans (inner.symm.trans outer.symm)

end GroupingOf

/-! Where the SELECT under the grouping has predicates on all its rows. -/

theorem SelectOf.results_of_group {A : Aggregation} {s : Select} {base group : List Record}
    (limit : s.limit = none) (distinct : s.distinct = false) (grouped : s.groupsRows A = true)
    (single : A.groups s.groupKeys (base.filter (A.satisfies s.filters)) = [group]) :
    s.results A base = if A.meets s.having group then [A.summary s.columns group] else [] := by
  rw [results, if_pos grouped, single, limit, distinct, List.filter_cons, List.filter_nil]
  split <;> rfl

theorem Aggregation.groups_replicate (A : Aggregation) (keys : List Expr) (n : Nat)
    (record : Record) :
    A.groups keys (List.replicate (n + 1) record) = [List.replicate (n + 1) record] := by
  rw [groups]
  split
  · rfl
  · rw [List.map_replicate, List.replicate_dedup (Nat.succ_ne_zero n), List.map_singleton,
      List.filter_replicate, beq_self_eq_true, if_pos rfl]

namespace Pairs

def value : Expr → Record → Value
  | .column c, record => (record.lookup c.name).getD .null
  | _, _ => .bool true

/-- Whether there are two rows is all that an expression tells of them. -/
def aggregation : Aggregation where
  names := ⟨fun _ => none, fun _ _ => .ok .unknown⟩
  label _ := ""
  value := value
  value_column _ _ := rfl
  le _ _ := true
  le_total _ _ := .inl rfl
  le_trans _ _ _ _ _ := rfl
  aggregates _ := true
  overall _ group := .bool (group.length == 2)
  overall_perm _ _ _ same := congrArg (fun n => Value.bool (n == 2)) same.length_eq
  overall_of_agree _ _ _ single := Bool.noConfusion single

def columnTrue? : Expr → Option (String × Value)
  | .column c => some (c.name, .bool true)
  | _ => none

/-- A row that meets the given predicates. -/
def record (filters : List Expr) : Record :=
  filters.filterMap columnTrue?

theorem value_of_record {filters : List Expr} {e : Expr} (listed : e ∈ filters) :
    value e (record filters) = .bool true := by
  cases e with
  | column c =>
      have entry : (c.name, Value.bool true) ∈ record filters :=
        List.mem_filterMap.mpr ⟨.column c, listed, rfl⟩
      cases found : (record filters).lookup c.name with
      | none =>
          have missing := List.lookup_eq_none_iff.mp found _ entry
          simp at missing
      | some v =>
          obtain ⟨front, back, split, -⟩ := List.lookup_eq_some_iff.mp found
          have among : (c.name, v) ∈ record filters :=
            split ▸ List.mem_append_right _ List.mem_cons_self
          obtain ⟨e, -, made⟩ := List.mem_filterMap.mp among
          have truth : v = .bool true := by
            cases e with
            | column d => exact (congrArg Prod.snd (Option.some.inj made)).symm
            | _ => cases made
          rw [value, found, Option.getD_some, truth]
  | _ => rfl

theorem satisfies_record (filters : List Expr) :
    aggregation.satisfies filters (record filters) = true := by
  rw [Evaluation.satisfies, List.all_eq_true]
  intro e listed
  exact beq_iff_eq.mpr (value_of_record listed)

theorem filter_replicate (filters : List Expr) (n : Nat) :
    (List.replicate n (record filters)).filter (aggregation.satisfies filters) =
      List.replicate n (record filters) := by
  rw [List.filter_replicate, if_pos (satisfies_record filters)]

theorem meets_two (having : List Expr) (r : Record) :
    aggregation.meets having (List.replicate 2 r) = true :=
  List.all_eq_true.mpr fun _ _ => rfl

end Pairs

namespace GroupingOf

open Pairs

variable {g : Grouping} {s : Select}

theorem results_pairs (selects : g.outputs ≠ []) (table : Option Relation)
    (filters orderBy : List Expr) (r : Record) (n : Nat)
    (kept : (List.replicate (n + 1) r).filter (aggregation.satisfies filters) =
      List.replicate (n + 1) r) :
    (g.level table filters orderBy).results aggregation (List.replicate (n + 1) r) =
      if aggregation.meets g.having (List.replicate (n + 1) r) then
        [aggregation.summary (some g.outputs) (List.replicate (n + 1) r)]
      else [] := by
  have grouped : (g.level table filters orderBy).groupsRows aggregation = true := by
    obtain ⟨e, rest, outputs⟩ := List.exists_cons_of_ne_nil selects
    rw [groupsRows_level, groupsRows, outputs]
    exact Bool.or_true _
  have single : aggregation.groups (g.level table filters orderBy).groupKeys
      ((List.replicate (n + 1) r).filter (aggregation.satisfies filters)) =
        [List.replicate (n + 1) r] := by
    rw [kept, aggregation.groups_replicate]
  exact SelectOf.results_of_group rfl rfl grouped single

/-- Predicates on all rows of the SELECT leave one row of two, and are lost in the grouping. -/
theorem having_eq_nil_of_perm (plain : s.isPlain = true) (selects : g.outputs ≠ [])
    (same : ∀ A base, ((g.merged s).results A base).Perm (g.nested.results A (s.results A base))) :
    s.having = [] := by
  by_contra given
  simp only [SelectOf.isPlain, Bool.and_eq_true, Option.isNone_iff_eq_none, List.isEmpty_iff,
    Bool.not_eq_true'] at plain
  obtain ⟨⟨⟨columns, groupBy⟩, limit⟩, distinct⟩ := plain
  have grouped : s.groupsRows aggregation = true := by
    obtain ⟨e, rest, having⟩ := List.exists_cons_of_ne_nil given
    rw [SelectOf.groupsRows, having, groupBy]
    rfl
  have two := filter_replicate s.filters 2
  have single : aggregation.groups s.groupKeys
      ((List.replicate 2 (record s.filters)).filter (aggregation.satisfies s.filters)) =
        [List.replicate 2 (record s.filters)] := by
    rw [two, Aggregation.groups_replicate]
  have inner : s.results aggregation (List.replicate 2 (record s.filters)) =
      List.replicate 1 (record s.filters) := by
    rw [SelectOf.results_of_group limit distinct grouped single, if_pos (meets_two _ _), columns]
    rfl
  have outer := g.results_pairs selects (some g.table) [] [] (record s.filters) 0 rfl
  have whole := g.results_pairs selects s.table s.filters s.orderBy (record s.filters) 1 two
  rw [if_pos (meets_two _ _)] at whole
  have rows := same aggregation (List.replicate 2 (record s.filters))
  rw [inner, nested, merged, outer, whole] at rows
  split at rows
  · obtain ⟨e, rest, outputs⟩ := List.exists_cons_of_ne_nil selects
    have equal := List.singleton_perm_singleton.mp rows
    rw [outputs] at equal
    have values : Value.bool true = Value.bool false :=
      congrArg Prod.snd (List.cons.inj equal).1
    cases values
  · cases rows.length_eq

/-- The SELECT of a grouping and of the SELECT under it has the predicates of both and no order of
rows that it groups, and it gives the rows of the grouping with the other as its table. -/
structure Faithful (g : Grouping) (s : Select) : Prop where
  filters : ∀ e ∈ s.filters, e ∈ (g.merged s).filters
  having : ∀ e ∈ s.having ++ g.having, e ∈ (g.merged s).having
  orderBy : (g.merged s).orderBy = []
  rows : ∀ A base, ((g.merged s).results A base).Perm (g.nested.results A (s.results A base))

end GroupingOf

/-- A grouping that takes the SELECT under it into itself has the text of one SELECT. It gives the
same rows as around that SELECT exactly if that one has no predicates on groups; and it has all
predicates too and no order exactly if that one has neither. -/
theorem GroupingOf.merged_faithful_iff {g : Grouping} {s : Select} (absorbed : g.absorbed? = some s)
    (selects : g.outputs ≠ []) :
    (∀ links ctx, (Relation.grouping g).render links ctx =
        (Relation.select (g.merged s)).render links ctx) ∧
      ((∀ A base, ((g.merged s).results A base).Perm (g.nested.results A (s.results A base))) ↔
        s.having = []) ∧
      (g.Faithful s ↔ s.having = [] ∧ s.orderBy = []) := by
  have plain := (eq_of_absorbed absorbed).2
  refine ⟨fun links ctx => render_merged links ctx absorbed, ⟨?_, ?_⟩, ⟨?_, ?_⟩⟩
  · exact having_eq_nil_of_perm plain selects
  · intro none A base
    exact g.merged_perm A plain none base
  · intro faithful
    exact ⟨having_eq_nil_of_perm plain selects faithful.rows, faithful.orderBy⟩
  · rintro ⟨none, unordered⟩
    refine ⟨fun _ listed => listed, ?_, unordered, fun A base => g.merged_perm A plain none base⟩
    rw [none, List.nil_append]
    exact fun _ listed => listed

/-! Orders by customer. -/

namespace OrdersByCustomer

def orders : Relation := .table ⟨⟨0⟩, .orders, none⟩

def positive : Select where
  id := ⟨1⟩
  table := some orders
  filters := [.binary .gt [.column ⟨orders, "amount"⟩, .value (.int 0)]]

def sorted : Select where
  id := ⟨1⟩
  table := some orders
  orderBy := [.column ⟨orders, "id"⟩]

def later : Expr := .binary .gt [.column ⟨orders, "id"⟩, .value (.int 1)]

def latest : Select where
  id := ⟨1⟩
  table := some orders
  having := [later]

def number : Expr := .count (some (.column ⟨orders, "id"⟩)) false

def regular : Expr := .binary .gt [number, .value (.int 2)]

def counted (s : Select) : Grouping where
  id := ⟨2⟩
  table := .select s
  keys := [.column ⟨orders, "customer"⟩]
  values := [.aliased number "n"]
  having := [regular]

def settings : Settings := { dialect := .duckDB }

end OrdersByCustomer

open OrdersByCustomer in
theorem merged_faithful_of_positive :
    (counted positive).absorbed? = some positive ∧ (counted positive).outputs ≠ [] ∧
      (counted positive).Faithful positive ∧
      (Node.relation (.grouping (counted positive))).compile {} settings =
        .ok ("SELECT \"customer\", count(\"id\") AS \"n\" FROM \"orders\" " ++
          "WHERE (\"amount\" > 0) GROUP BY 1 HAVING (count(\"id\") > 2)") := by
  have selects : (counted positive).outputs ≠ [] := List.cons_ne_nil _ _
  obtain ⟨-, -, faithful⟩ := GroupingOf.merged_faithful_iff
    (rfl : (counted positive).absorbed? = some positive) selects
  exact ⟨rfl, selects, faithful.mpr ⟨rfl, rfl⟩, rfl⟩

open OrdersByCustomer in
/-- The order of the single rows stays, and their predicate gives way to the one on the groups. -/
theorem merged_unfaithful_of_latest :
    (counted sorted).absorbed? = some sorted ∧ ¬ (counted sorted).Faithful sorted ∧
      (Node.relation (.grouping (counted sorted))).compile {} settings =
        .ok ("SELECT \"customer\", count(\"id\") AS \"n\" FROM \"orders\" " ++
          "GROUP BY 1 HAVING (count(\"id\") > 2) ORDER BY \"id\"") ∧
      (counted latest).absorbed? = some latest ∧ ¬ (counted latest).Faithful latest ∧
      (Node.relation (.grouping (counted latest))).compile {} settings =
        .ok ("SELECT \"customer\", count(\"id\") AS \"n\" FROM \"orders\" " ++
          "GROUP BY 1 HAVING (count(\"id\") > 2)") := by
  refine ⟨rfl, ?_, rfl, rfl, ?_, rfl⟩
  · intro faithful
    cases faithful.orderBy
  · intro faithful
    have carried := List.mem_singleton.mp (faithful.having later List.mem_cons_self)
    cases carried

end SqlQuery
