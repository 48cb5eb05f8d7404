import SqlQuery.Proofs.Render.Outcome
import SqlQuery.Proofs.Rows.Layer

/-!
Calls that lay clauses over a relation, one after another. Main statement: the nested SELECTs that
come of it carry the clauses in the order of the calls, each once, and what comes after a LIMIT is
laid around the SELECT that has it.
-/

namespace SqlQuery

/-- The SELECTs that are nested directly in one another, from the inside out. -/
def Relation.levels : Relation → List Select
  | .select s@⟨_, some source, _, _, _, _, _, _, _⟩ => source.levels ++ [s]
  | .select s@⟨_, none, _, _, _, _, _, _, _⟩ => [s]
  | _ => []

/-- The clauses that a SELECT adds to its table, those of a grouping apart. -/
def SelectOf.clauses (s : Select) : Clauses where
  columns := s.columns
  filters := s.filters
  orderBy := s.orderBy
  limit := s.limit
  distinct := some s.distinct

/-- A call on any relation that lays clauses over it. -/
inductive Layering where
  | select (distinct : Option Bool) (columns : Arguments)
  | filter (predicates : Arguments)
  | orderBy (exprs : Arguments)
  | limit (count : UInt64)

namespace Layering

def clauses : Layering → Clauses
  | select distinct columns =>
      { columns := if columns.present.isEmpty then none else some columns.present, distinct }
  | filter predicates => { filters := predicates.present }
  | orderBy exprs => { orderBy := exprs.present }
  | limit count => { limit := some count }

def run (r : Relation) : Layering → Build Relation
  | select distinct columns => Build.selectWith distinct r columns
  | filter predicates => Build.filter r predicates
  | orderBy exprs => Build.orderBy r exprs
  | limit count => Build.limit r count

def runAll (r : Relation) (calls : List Layering) : Build Relation :=
  calls.foldlM run r

end Layering

namespace Clauses

def nonempty (lists : List (List Expr)) : List (List Expr) :=
  lists.filter (!·.isEmpty)

/-- The same clauses in the same order, for each kind. Empty lists say nothing. -/
structure Agree (a b : List Clauses) : Prop where
  filters : a.flatMap filters = b.flatMap filters
  columns : nonempty (a.filterMap columns) = nonempty (b.filterMap columns)
  orderBy : nonempty (a.map orderBy) = nonempty (b.map orderBy)
  limits : a.filterMap limit = b.filterMap limit

namespace Agree

variable {a b c d : List Clauses}

theorem refl (a : List Clauses) : Agree a a :=
  ⟨rfl, rfl, rfl, rfl⟩

theorem symm (agree : Agree a b) : Agree b a :=
  ⟨agree.filters.symm, agree.columns.symm, agree.orderBy.symm, agree.limits.symm⟩

theorem trans (first : Agree a b) (second : Agree b c) : Agree a c :=
  ⟨first.filters.trans second.filters, first.columns.trans second.columns,
    first.orderBy.trans second.orderBy, first.limits.trans second.limits⟩

theorem append (left : Agree a b) (right : Agree c d) : Agree (a ++ c) (b ++ d) where
  filters := by simp only [List.flatMap_append, left.filters, right.filters]
  columns := by
    have left := left.columns
    have right := right.columns
    simp only [nonempty] at left right
    simp only [nonempty, List.filterMap_append, List.filter_append, left, right]
  orderBy := by
    have left := left.orderBy
    have right := right.orderBy
    simp only [nonempty] at left right
    simp only [nonempty, List.map_append, List.filter_append, left, right]
  limits := by simp only [List.filterMap_append, left.limits, right.limits]

theorem wrap (id : RelationId) (r : Relation) (clauses : Clauses) :
    Agree [(clauses.wrap id r).clauses] [clauses] :=
  ⟨rfl, rfl, rfl, rfl⟩

theorem absorb {s : Select} {clauses : Clauses} (absorbs : s.Absorbs clauses) (id : RelationId) :
    Agree [(s.absorb id clauses).clauses] [s.clauses, clauses] where
  filters := by simp [SelectOf.clauses, SelectOf.absorb]
  columns := by
    rcases absorbs.columns with none | none
    · simp [SelectOf.clauses, SelectOf.absorb, none, List.filterMap_cons]
    · simp [SelectOf.clauses, SelectOf.absorb, none, List.filterMap_cons]
  orderBy := by
    rcases absorbs.orderBy with none | none
    · simp [SelectOf.clauses, SelectOf.absorb, none, nonempty, List.filter_cons]
    · by_cases given : clauses.orderBy = []
      · simp [SelectOf.clauses, SelectOf.absorb, given, nonempty, List.filter_cons]
      · simp [SelectOf.clauses, SelectOf.absorb, given, none, nonempty]
  limits := by simp [SelectOf.clauses, SelectOf.absorb, absorbs.limit, List.filterMap_cons]

end Agree

end Clauses

open Clauses (Agree)

namespace Relation

theorem levels_wrap (id : RelationId) (r : Relation) (clauses : Clauses) :
    (Relation.select (clauses.wrap id r)).levels = r.levels ++ [clauses.wrap id r] := rfl

/-- A SELECT has the levels of its table, whatever its clauses are, and itself around them. -/
theorem exists_levels_select (s : Select) :
    ∃ inner, ∀ s' : Select, s'.table = s.table → (Relation.select s').levels = inner ++ [s'] := by
  obtain ⟨_, table, _, _, _, _, _, _, _⟩ := s
  cases table with
  | none =>
      refine ⟨[], ?_⟩
      rintro ⟨_, _, _, _, _, _, _, _, _⟩ rfl
      rfl
  | some source =>
      refine ⟨source.levels, ?_⟩
      rintro ⟨_, _, _, _, _, _, _, _, _⟩ rfl
      rfl

/-- Clauses come as a new level around the others or into the outermost one, which then has no
LIMIT. -/
theorem levels_layer (id : RelationId) (r : Relation) (clauses : Clauses) :
    (∃ level, (r.layer id clauses).levels = r.levels ++ [level] ∧
      level.limit = clauses.limit ∧ Agree [level.clauses] [clauses]) ∨
    ∃ inner outermost level, r.levels = inner ++ [outermost] ∧ outermost.limit = none ∧
      (r.layer id clauses).levels = inner ++ [level] ∧ level.limit = clauses.limit ∧
      Agree [level.clauses] [outermost.clauses, clauses] := by
  have around : (Relation.select (clauses.wrap id r)).levels = r.levels ++ [clauses.wrap id r] :=
    r.levels_wrap id clauses
  cases r with
  | select s =>
      rw [Relation.layer]
      split
      · next absorbs =>
          obtain ⟨inner, levels⟩ := Relation.exists_levels_select s
          have absorbs := SelectOf.absorbs_of_eq_true absorbs
          refine .inr ⟨inner, s, s.absorb id clauses, levels s rfl, absorbs.limit,
            levels _ rfl, ?_, .absorb absorbs id⟩
          simp [SelectOf.absorb, absorbs.limit]
      · exact .inl ⟨clauses.wrap id (.select s), around, rfl, .wrap id _ clauses⟩
  | _ => exact .inl ⟨_, around, rfl, .wrap id _ clauses⟩

end Relation

theorem Build.layer_outcome (r : Relation) (clauses : Clauses) (store : Store) :
    (Build.layer r clauses).outcome store =
      (.ok (r.layer ⟨store.relations⟩ clauses),
        { store with relations := store.relations + 1 }) := rfl

/-- Clauses are laid over a relation after their placeholders are bound. -/
theorem Build.eq_layer_of_resolve {source r result : Relation} {exprs : List Expr}
    {clauses : Clauses} {store after : Store}
    (ran : (do Build.resolve source exprs; Build.layer r clauses : Build Relation).outcome store =
      (.ok result, after)) : ∃ id, result = r.layer id clauses := by
  obtain ⟨_, middle, _, laid⟩ := ExceptT.outcome_bind_eq_ok.mp ran
  rw [Build.layer_outcome] at laid
  cases laid
  exact ⟨_, rfl⟩

namespace Layering

variable {store after : Store} {r result : Relation}

/-- A call all of whose arguments are skipped may give back the relation that it is made on. -/
theorem run_cases {call : Layering} (ran : (run r call).outcome store = (.ok result, after)) :
    (result = r ∧ Agree [call.clauses] []) ∨ ∃ id, result = r.layer id call.clauses := by
  cases call with
  | select distinct columns => exact .inr (Build.eq_layer_of_resolve ran)
  | filter predicates =>
      rw [run, Build.filter] at ran
      split at ran
      · next skipped =>
          cases ran
          exact .inl ⟨rfl, by simp [clauses, skipped], rfl, rfl, rfl⟩
      · exact .inr (Build.eq_layer_of_resolve ran)
  | orderBy exprs =>
      rw [run, Build.orderBy] at ran
      split at ran
      · next skipped =>
          cases ran
          exact .inl ⟨rfl, rfl, rfl, by simp [clauses, skipped, Clauses.nonempty], rfl⟩
      · exact .inr (Build.eq_layer_of_resolve ran)
  | limit count =>
      cases ran
      exact .inr ⟨_, rfl⟩

theorem levels_run {call : Layering} (ran : (run r call).outcome store = (.ok result, after)) :
    Agree (result.levels.map SelectOf.clauses)
      (r.levels.map SelectOf.clauses ++ [call.clauses]) := by
  rcases run_cases ran with ⟨rfl, skipped⟩ | ⟨id, rfl⟩
  · simpa using (Agree.refl (result.levels.map SelectOf.clauses)).append skipped.symm
  · rcases r.levels_layer id call.clauses with
      ⟨level, levels, _, agree⟩ | ⟨inner, outermost, level, before, _, levels, _, agree⟩
    · rw [levels, List.map_append]
      exact (Agree.refl _).append agree
    · rw [levels, before, List.map_append, List.map_append, List.append_assoc]
      exact (Agree.refl _).append agree

/-- A level with a LIMIT and all that is inside it stay as they are: what is laid over the relation
comes outside. -/
theorem levels_run_of_limited {call : Layering} {inner outer : List Select} {level : Select}
    (levels : r.levels = inner ++ level :: outer) (limited : level.limit ≠ none)
    (ran : (run r call).outcome store = (.ok result, after)) :
    ∃ further, result.levels = inner ++ level :: further ∧
      Agree (further.map SelectOf.clauses) (outer.map SelectOf.clauses ++ [call.clauses]) := by
  rcases run_cases ran with ⟨rfl, skipped⟩ | ⟨id, rfl⟩
  · refine ⟨outer, levels, ?_⟩
    simpa using (Agree.refl (outer.map SelectOf.clauses)).append skipped.symm
  · rcases r.levels_layer id call.clauses with
      ⟨added, layered, _, agree⟩ | ⟨below, outermost, added, before, unlimited, layered, _, agree⟩
    · refine ⟨outer ++ [added], by simp [layered, levels], ?_⟩
      rw [List.map_append]
      exact (Agree.refl _).append agree
    · -- The level that takes the clauses in has no LIMIT, so it is another one.
      rcases outer.eq_nil_or_concat with rfl | ⟨between, last, rfl⟩
      · rw [before] at levels
        obtain ⟨_, same⟩ := List.append_inj' levels rfl
        cases same
        exact absurd unlimited limited
      · rw [List.concat_eq_append] at levels ⊢
        rw [before, ← List.cons_append, ← List.append_assoc] at levels
        obtain ⟨rfl, same⟩ := List.append_inj' levels rfl
        cases same
        refine ⟨between ++ [added], by simp [layered], ?_⟩
        rw [List.map_append, List.map_append, List.append_assoc]
        exact (Agree.refl _).append agree

theorem runAll_cons_eq_ok {call : Layering} {calls : List Layering}
    (ran : (runAll r (call :: calls)).outcome store = (.ok result, after)) :
    ∃ next middle, (run r call).outcome store = (.ok next, middle) ∧
      (runAll next calls).outcome middle = (.ok result, after) := by
  rw [runAll, List.foldlM_cons] at ran
  exact ExceptT.outcome_bind_eq_ok.mp ran

theorem levels_runAll {calls : List Layering}
    (ran : (runAll r calls).outcome store = (.ok result, after)) :
    Agree (result.levels.map SelectOf.clauses)
      (r.levels.map SelectOf.clauses ++ calls.map clauses) := by
  induction calls generalizing r store with
  | nil =>
      cases ran
      simpa using Agree.refl (result.levels.map SelectOf.clauses)
  | cons call calls ih =>
      obtain ⟨next, middle, first, rest⟩ := runAll_cons_eq_ok ran
      have step := (levels_run first).append (.refl (calls.map clauses))
      rw [List.append_assoc] at step
      exact (ih rest).trans step

theorem levels_runAll_of_limited {calls : List Layering} {inner outer : List Select}
    {level : Select} (levels : r.levels = inner ++ level :: outer) (limited : level.limit ≠ none)
    (ran : (runAll r calls).outcome store = (.ok result, after)) :
    ∃ further, result.levels = inner ++ level :: further ∧
      Agree (further.map SelectOf.clauses) (outer.map SelectOf.clauses ++ calls.map clauses) := by
  induction calls generalizing r store outer with
  | nil =>
      cases ran
      exact ⟨outer, levels, by simpa using Agree.refl (outer.map SelectOf.clauses)⟩
  | cons call calls ih =>
      obtain ⟨next, middle, first, rest⟩ := runAll_cons_eq_ok ran
      obtain ⟨between, reached, step⟩ := levels_run_of_limited levels limited first
      obtain ⟨further, levels, agree⟩ := ih reached rest
      have step := step.append (.refl (calls.map clauses))
      rw [List.append_assoc] at step
      exact ⟨further, levels, agree.trans step⟩

end Layering

/-- After successful calls on a relation, the levels of the result carry the clauses of the relation
and then those of the calls, each once and in their order. Where one of the calls sets a LIMIT, all
clauses up to it are at the level that has it or inside, and all later ones are outside. -/
theorem Layering.levels_carry_clauses {store after : Store} {r result : Relation}
    {calls : List Layering} (ran : (runAll r calls).outcome store = (.ok result, after)) :
    Agree (result.levels.map SelectOf.clauses)
      (r.levels.map SelectOf.clauses ++ calls.map clauses) ∧
    ∀ earlier count later, calls = earlier ++ limit count :: later →
      ∃ inner level outer, result.levels = inner ++ level :: outer ∧ level.limit = some count ∧
        Agree ((inner ++ [level]).map SelectOf.clauses)
          (r.levels.map SelectOf.clauses ++ (earlier ++ [limit count]).map clauses) ∧
        Agree (outer.map SelectOf.clauses) (later.map clauses) := by
  refine ⟨levels_runAll ran, ?_⟩
  rintro earlier count later rfl
  rw [runAll, List.foldlM_append] at ran
  obtain ⟨before, middle, first, rest⟩ := ExceptT.outcome_bind_eq_ok.mp ran
  obtain ⟨sealed, sealing, set, rest⟩ := runAll_cons_eq_ok rest
  have upTo : (runAll r (earlier ++ [limit count])).outcome store = (.ok sealed, sealing) := by
    rw [runAll, List.foldlM_append, ExceptT.outcome_bind_of_ok first]
    exact ExceptT.outcome_bind_eq_ok.mpr ⟨sealed, sealing, set, rfl⟩
  obtain ⟨inner, level, levels, limited⟩ :
      ∃ inner level, sealed.levels = inner ++ [level] ∧ level.limit = some count := by
    cases set
    rcases before.levels_layer ⟨middle.relations⟩ (limit count).clauses with
      ⟨level, levels, limited, _⟩ | ⟨inner, _, level, _, _, levels, limited, _⟩
    · exact ⟨before.levels, level, levels, limited⟩
    · exact ⟨inner, level, levels, limited⟩
  obtain ⟨outer, reached, agree⟩ :=
    levels_runAll_of_limited levels (by simp [limited]) rest
  exact ⟨inner, level, outer, reached, limited, levels ▸ levels_runAll upTo, agree⟩

/-! The five largest of the orders above ten, of which those under twenty are counted. -/

namespace LargestOrders

def orders : Relation := .table ⟨⟨0⟩, .orders, none⟩

def amount (id : Nat) : Expr := .placeholder ⟨id⟩ "amount"

def above : Layering := .filter [some (.binary .gt [amount 0, .value (.int 10)]), none]

def falling : Layering := .orderBy [some (.negate (amount 1))]

def under : Layering := .filter [some (.binary .lt [amount 2, .value (.int 20)])]

def counted : Layering := .select (some false) [some (.count none false)]

def store : Store := { relations := 1, placeholders := 3 }

def largest : Select :=
  { id := ⟨3⟩
    table := some orders
    filters := [.binary .gt [amount 0, .value (.int 10)]]
    orderBy := [.negate (amount 1)]
    limit := some 5 }

def number : Select :=
  { id := ⟨5⟩
    table := some (.select largest)
    columns := some [.count none false]
    filters := [.binary .lt [amount 2, .value (.int 20)]] }

end LargestOrders

open LargestOrders in
theorem levels_carry_clauses_of_largest :
    (∃ after, (Layering.runAll orders [above, falling, .limit 5, under, counted]).outcome store =
      (.ok (.select number), after)) ∧
    (Relation.select number).levels = [largest, number] ∧
    Agree [largest.clauses, number.clauses]
      ([above, falling, .limit 5, under, counted].map Layering.clauses) ∧
    ∃ inner level outer, [largest, number] = inner ++ level :: outer ∧ level.limit = some 5 ∧
      Agree ((inner ++ [level]).map SelectOf.clauses)
        ([above, falling, .limit 5].map Layering.clauses) ∧
      Agree (outer.map SelectOf.clauses) ([under, counted].map Layering.clauses) := by
  have ran : (Layering.runAll orders [above, falling, .limit 5, under, counted]).outcome store =
      (.ok (.select number), _) := rfl
  obtain ⟨agree, sealed⟩ := Layering.levels_carry_clauses ran
  exact ⟨⟨_, ran⟩, rfl, agree, sealed [above, falling] 5 [under, counted] rfl⟩

end SqlQuery
