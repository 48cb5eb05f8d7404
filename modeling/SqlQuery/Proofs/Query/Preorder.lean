import Mathlib.Data.List.Forall2
import Mathlib.Logic.Function.Iterate
import SqlQuery.Proofs.Query.Walk

/-!
The order of the walk through an expression. Main statement: the walk visits a node before the nodes
under it and these from left to right, it comes to every place of the expression once, and columns,
placeholders and embedded queries are the ends of its ways.
-/

namespace SqlQuery.Expr

/-! The loop, round by round. -/

theorem weightOfAll_reverse (es : List Expr) : weightOfAll es.reverse = weightOfAll es := by
  induction es with
  | nil => rfl
  | cons e es ih =>
      rw [List.reverse_cons, weightOfAll_append, ih, weightOfAll, weightOfAll, weightOfAll,
        Nat.add_zero, Nat.add_comm]

theorem eq_nil_of_weightOfAll {es : List Expr} (none : weightOfAll es = 0) : es = [] := by
  cases es with
  | nil => rfl
  | cons e es =>
      rw [weightOfAll, weight_eq] at none
      omega

/-- What has been visited, and the stack of the nodes to visit, the next one last. -/
structure Tour where
  visited : List Expr
  stack : List Expr

namespace Tour

/-- Takes the last node off the stack and puts its children there, the first one last. -/
def next (tour : Tour) : Tour :=
  match tour.stack.getLast? with
  | none => tour
  | some e => ⟨tour.visited ++ [e], tour.stack.dropLast ++ e.children.reverse⟩

theorem next_nil (visited : List Expr) : next ⟨visited, []⟩ = ⟨visited, []⟩ := rfl

theorem next_concat (visited stack : List Expr) (e : Expr) :
    next ⟨visited, stack ++ [e]⟩ = ⟨visited ++ [e], stack ++ e.children.reverse⟩ := by
  simp only [next, List.getLast?_concat, List.dropLast_concat]

theorem visited_next (tour : Tour) :
    tour.next.visited ++ tour.next.stack.reverse.flatMap walk =
      tour.visited ++ tour.stack.reverse.flatMap walk := by
  obtain ⟨visited, stack⟩ := tour
  rcases List.eq_nil_or_concat stack with rfl | ⟨stack, e, rfl⟩
  · rw [next_nil]
  · simp only [List.concat_eq_append, next_concat, List.reverse_append, List.reverse_reverse,
      List.reverse_singleton, List.flatMap_append, List.flatMap_cons, walk_eq e,
      List.cons_append, List.append_assoc, List.nil_append]

theorem weight_next (tour : Tour) :
    weightOfAll tour.next.stack = weightOfAll tour.stack - 1 := by
  obtain ⟨visited, stack⟩ := tour
  rcases List.eq_nil_or_concat stack with rfl | ⟨stack, e, rfl⟩
  · rfl
  · simp only [List.concat_eq_append, next_concat, weightOfAll_append, weightOfAll, weight_eq e]
    rw [weightOfAll_reverse]
    omega

/-- What is visited in the end is the same after any number of rounds, and each of them takes one
node off the weight of the stack. -/
theorem iterate_next (n : Nat) (tour : Tour) :
    (next^[n] tour).visited ++ (next^[n] tour).stack.reverse.flatMap walk =
        tour.visited ++ tour.stack.reverse.flatMap walk ∧
      weightOfAll (next^[n] tour).stack = weightOfAll tour.stack - n := by
  induction n generalizing tour with
  | zero => exact ⟨rfl, rfl⟩
  | succ n ih =>
      obtain ⟨visited, weight⟩ := ih tour.next
      rw [Function.iterate_succ_apply, visited, weight, visited_next, weight_next]
      exact ⟨rfl, by omega⟩

/-- After as many rounds as there are nodes the stack is empty. -/
theorem iterate_next_weight (e : Expr) : next^[e.weight] ⟨[], [e]⟩ = ⟨e.walk, []⟩ := by
  obtain ⟨visited, weight⟩ := iterate_next e.weight ⟨[], [e]⟩
  rw [weightOfAll_singleton, Nat.sub_self] at weight
  generalize next^[e.weight] ⟨[], [e]⟩ = last at visited weight ⊢
  obtain ⟨nodes, stack⟩ := last
  cases eq_nil_of_weightOfAll weight
  simp only [List.reverse_nil, List.flatMap_nil, List.append_nil, List.reverse_singleton,
    List.flatMap_cons, List.nil_append] at visited
  rw [visited]

end Tour

/-! Places in an expression. -/

/-- The expressions directly under an expression, each with its number from the left. -/
inductive Operand : Expr → Nat → Expr → Prop
  | aliased {e name} : Operand (.aliased e name) 0 e
  | item {items separator i e} : items[i]? = some e → Operand (.concat items separator) i e
  | counted {e distinct} : Operand (.count (some e) distinct) 0 e
  | argument {function arguments i e} : arguments[i]? = some e →
      Operand (.call function arguments) i e
  | condition {branches otherwise i b} : branches[i]? = some b →
      Operand (.case ⟨branches, otherwise⟩) (2 * i) b.condition
  | result {branches otherwise i b} : branches[i]? = some b →
      Operand (.case ⟨branches, otherwise⟩) (2 * i + 1) b.result
  | otherwise {branches e} : Operand (.case ⟨branches, some e⟩) (2 * branches.length) e
  | left {left right} : Operand (.isDistinctFrom left right) 0 left
  | right {left right} : Operand (.isDistinctFrom left right) 1 right
  | operand {operator arguments i e} : arguments[i]? = some e →
      Operand (.binary operator arguments) i e
  | negated {e} : Operand (.negate e) 0 e
  | sought {e list} : Operand (.isIn e list) 0 e
  | candidate {e list i x} : list[i]? = some x → Operand (.isIn e list) (i + 1) x
  | converted {e type} : Operand (.cast e type) 0 e

/-- An expression at a place of another one: the numbers of the operands on the way down to it. -/
inductive Occurs : Expr → List Nat → Expr → Prop
  | here {e} : Occurs e [] e
  | under {e operand x i place} : Operand e i operand → Occurs operand place x →
      Occurs e (i :: place) x

/-- What stands for something outside the expression: a column of a relation, a placeholder for a
column, an embedded query. -/
inductive IsReference : Expr → Prop
  | column (c : Column) : IsReference (.column c)
  | placeholder (id : PlaceholderId) (name : String) : IsReference (.placeholder id name)
  | subquery (r : Relation) : IsReference (.subquery r)

variable {e x y : Expr} {i : Nat} {place : List Nat}

/-! The children of an expression are its operands in order. -/

theorem getElem?_children_case (branches : List Branch) (otherwise : Option Expr) (i : Nat) :
    (Expr.case ⟨branches, otherwise⟩).children[2 * i]? =
        (if i = branches.length then otherwise else branches[i]?.map BranchOf.condition) ∧
      (Expr.case ⟨branches, otherwise⟩).children[2 * i + 1]? =
        branches[i]?.map BranchOf.result := by
  induction branches generalizing i with
  | nil =>
      cases i with
      | zero =>
          cases otherwise with
          | none => exact ⟨rfl, rfl⟩
          | some e => exact ⟨rfl, rfl⟩
      | succ i =>
          cases otherwise with
          | none => exact ⟨rfl, rfl⟩
          | some e => exact ⟨rfl, rfl⟩
  | cons b branches ih =>
      cases i with
      | zero => exact ⟨rfl, rfl⟩
      | succ i =>
          -- two children less, and one branch less
          simp only [List.length_cons, Nat.add_right_cancel_iff]
          exact ih i

theorem Operand.getElem?_children (operand : Operand e i x) : e.children[i]? = some x := by
  cases operand with
  | aliased => rfl
  | item found => exact found
  | counted => rfl
  | argument found => exact found
  | @condition branches otherwise i b found =>
      have inside : i < branches.length := (List.getElem?_eq_some_iff.mp found).1
      rw [(getElem?_children_case branches otherwise i).1, if_neg (Nat.ne_of_lt inside), found]
      rfl
  | @result branches otherwise i b found =>
      rw [(getElem?_children_case branches otherwise i).2, found]
      rfl
  | otherwise => rw [(getElem?_children_case _ _ _).1, if_pos rfl]
  | left => rfl
  | right => rfl
  | operand found => exact found
  | negated => rfl
  | sought => rfl
  | candidate found => exact found
  | converted => rfl

theorem operand_case {branches : List Branch} {otherwise : Option Expr}
    (found : (Expr.case ⟨branches, otherwise⟩).children[i]? = some x) :
    Operand (.case ⟨branches, otherwise⟩) i x := by
  have parity : i = 2 * (i / 2) ∨ i = 2 * (i / 2) + 1 := by omega
  obtain ⟨even, odd⟩ := getElem?_children_case branches otherwise (i / 2)
  rcases parity with parity | parity
  · rw [parity, even] at found
    rw [parity]
    split at found
    · next last =>
        rw [found, last]
        exact .otherwise
    · obtain ⟨b, listed, rfl⟩ := Option.map_eq_some_iff.mp found
      exact .condition listed
  · rw [parity, odd] at found
    rw [parity]
    obtain ⟨b, listed, rfl⟩ := Option.map_eq_some_iff.mp found
    exact .result listed

theorem eq_of_getElem?_singleton {a : Expr} (found : [a][i]? = some x) : i = 0 ∧ a = x := by
  cases i with
  | zero => exact ⟨rfl, Option.some.inj found⟩
  | succ i => cases found

theorem operand_iff : Operand e i x ↔ e.children[i]? = some x := by
  constructor
  · exact Operand.getElem?_children
  · intro found
    cases e with
    | aliased e name =>
        obtain ⟨rfl, rfl⟩ := eq_of_getElem?_singleton found
        exact .aliased
    | concat items separator => exact .item found
    | count argument distinct =>
        cases argument with
        | none => cases found
        | some e =>
            obtain ⟨rfl, rfl⟩ := eq_of_getElem?_singleton found
            exact .counted
    | call function arguments => exact .argument found
    | case c => exact operand_case found
    | isDistinctFrom left right =>
        cases i with
        | zero =>
            cases found
            exact .left
        | succ i =>
            obtain ⟨rfl, rfl⟩ := eq_of_getElem?_singleton found
            exact .right
    | binary operator arguments => exact .operand found
    | negate e =>
        obtain ⟨rfl, rfl⟩ := eq_of_getElem?_singleton found
        exact .negated
    | isIn e list =>
        cases i with
        | zero =>
            cases found
            exact .sought
        | succ i => exact .candidate found
    | cast e type =>
        obtain ⟨rfl, rfl⟩ := eq_of_getElem?_singleton found
        exact .converted
    | _ => cases found

theorem occurs_cons_iff :
    e.Occurs (i :: place) x ↔
      ∃ operand, e.children[i]? = some operand ∧ operand.Occurs place x := by
  constructor
  · intro occurs
    cases occurs with
    | under operand inner => exact ⟨_, operand.getElem?_children, inner⟩
  · intro found
    obtain ⟨operand, listed, inner⟩ := found
    exact .under (operand_iff.mpr listed) inner

/-- Nothing is under a reference. -/
theorem Occurs.eq_of_reference {more : List Nat} (reference : x.IsReference)
    (here : e.Occurs place x) (below : e.Occurs (place ++ more) y) : more = [] := by
  induction here with
  | here =>
      cases below with
      | here => rfl
      | under operand _ =>
          cases reference with
          | column c => cases operand
          | placeholder id name => cases operand
          | subquery r => cases operand
  | @under e inner x i place operand _ ih =>
      obtain ⟨other, listed, below⟩ := occurs_cons_iff.mp below
      cases Option.some.inj (operand.getElem?_children.symm.trans listed)
      exact ih reference below

/-! The places that the walk comes to. -/

/-- The nodes are those at the places, one after the other; the places are all there are, and they
come in the order of their numbers. -/
structure Lists (occurs : List Nat → Expr → Prop) (places : List (List Nat)) (nodes : List Expr) :
    Prop where
  visited : List.Forall₂ occurs places nodes
  inOrder : places.Pairwise (· < ·)
  complete : ∀ place x, occurs place x → place ∈ places

theorem Lists.exists_occurs {occurs : List Nat → Expr → Prop} {places : List (List Nat)}
    {nodes : List Expr} (lists : Lists occurs places nodes) (listed : place ∈ places) :
    ∃ x, occurs place x := by
  obtain ⟨visited, -, -⟩ := lists
  induction visited with
  | nil => cases listed
  | cons first _ ih =>
      rcases List.mem_cons.mp listed with rfl | later
      · exact ⟨_, first⟩
      · exact ih later

/-- An expression at a place of one of several operands, which are numbered from some number on. -/
def OccursAmong (operands : List Expr) (start : Nat) (place : List Nat) (x : Expr) : Prop :=
  ∃ i operand rest, operands[i]? = some operand ∧ place = (start + i) :: rest ∧
    operand.Occurs rest x

theorem Lists.nil (start : Nat) : Lists (OccursAmong [] start) [] [] where
  visited := .nil
  inOrder := .nil
  complete := by
    intro place x occurs
    obtain ⟨i, operand, rest, listed, -, -⟩ := occurs
    cases listed

theorem Lists.cons {operands nodes more : List Expr} {start : Nat} {places others : List (List Nat)}
    (first : Lists e.Occurs places nodes)
    (later : Lists (OccursAmong operands (start + 1)) others more) :
    Lists (OccursAmong (e :: operands) start) (places.map (start :: ·) ++ others)
      (nodes ++ more) where
  visited := by
    refine List.rel_append ?_ ?_
    · rw [List.forall₂_map_left_iff]
      refine first.visited.imp ?_
      intro place x occurs
      exact ⟨0, e, place, rfl, rfl, occurs⟩
    · refine later.visited.imp ?_
      intro place x occurs
      obtain ⟨i, operand, rest, listed, rfl, inner⟩ := occurs
      refine ⟨i + 1, operand, rest, listed, ?_, inner⟩
      rw [Nat.add_assoc, Nat.add_comm 1]
  inOrder := by
    rw [List.pairwise_append, List.pairwise_map]
    refine ⟨?_, later.inOrder, ?_⟩
    · refine first.inOrder.imp ?_
      intro a b less
      exact List.cons_lt_cons_iff.mpr (.inr ⟨rfl, less⟩)
    · intro a here b there
      obtain ⟨place, -, rfl⟩ := List.mem_map.mp here
      obtain ⟨x, occurs⟩ := later.exists_occurs there
      obtain ⟨i, operand, rest, -, rfl, -⟩ := occurs
      exact List.cons_lt_cons_iff.mpr (.inl (by omega))
  complete := by
    intro place x occurs
    obtain ⟨i, operand, rest, listed, rfl, inner⟩ := occurs
    cases i with
    | zero =>
        cases listed
        exact List.mem_append_left _ (List.mem_map_of_mem (first.complete rest x inner))
    | succ i =>
        refine List.mem_append_right _ (later.complete _ x ⟨i, operand, rest, listed, ?_, inner⟩)
        rw [Nat.add_assoc, Nat.add_comm 1]

theorem Lists.node {places : List (List Nat)} {nodes : List Expr}
    (under : Lists (OccursAmong e.children 0) places nodes) :
    Lists e.Occurs ([] :: places) (e :: nodes) where
  visited := by
    refine .cons .here (under.visited.imp ?_)
    intro place x occurs
    obtain ⟨i, operand, rest, listed, rfl, inner⟩ := occurs
    rw [Nat.zero_add]
    exact occurs_cons_iff.mpr ⟨operand, listed, inner⟩
  inOrder := by
    refine List.pairwise_cons.mpr ⟨?_, under.inOrder⟩
    intro place listed
    obtain ⟨x, occurs⟩ := under.exists_occurs listed
    obtain ⟨i, operand, rest, -, rfl, -⟩ := occurs
    exact List.nil_lt_cons _ _
  complete := by
    intro place x occurs
    cases place with
    | nil => exact List.mem_cons_self
    | cons i rest =>
        obtain ⟨operand, listed, inner⟩ := occurs_cons_iff.mp occurs
        refine List.mem_cons_of_mem _ (under.complete _ x ⟨i, operand, rest, listed, ?_, inner⟩)
        rw [Nat.zero_add]

theorem exists_lists_flatMap {operands : List Expr}
    (each : ∀ e ∈ operands, ∃ places, Lists e.Occurs places e.walk) (start : Nat) :
    ∃ places, Lists (OccursAmong operands start) places (operands.flatMap walk) := by
  induction operands generalizing start with
  | nil => exact ⟨[], .nil start⟩
  | cons e operands ih =>
      obtain ⟨here, later⟩ := List.forall_mem_cons.mp each
      obtain ⟨places, first⟩ := here
      obtain ⟨others, rest⟩ := ih later (start + 1)
      exact ⟨_, first.cons rest⟩

theorem exists_lists_walk (e : Expr) : ∃ places, Lists e.Occurs places e.walk := by
  induction e using children_induction with
  | step e ih =>
      obtain ⟨places, under⟩ := exists_lists_flatMap ih 0
      rw [walk_eq]
      exact ⟨_, under.node⟩

/-- The walk is the recursion that gives a node before the walks of its children, from left to
right. The loop with the stack does it in as many rounds as there are nodes. It comes to each place
of the expression once, and to no place under a column, a placeholder or an embedded query. -/
theorem walk_preorder (e : Expr) :
    e.walk = e :: e.children.flatMap walk ∧
    Tour.next^[e.weight] ⟨[], [e]⟩ = ⟨e.walk, []⟩ ∧
    (∀ rounds < e.weight, (Tour.next^[rounds] ⟨[], [e]⟩).stack ≠ []) ∧
    (∃ places, Lists e.Occurs places e.walk) ∧
    ∀ place more x y,
      x.IsReference → e.Occurs place x → e.Occurs (place ++ more) y → more = [] := by
  refine ⟨walk_eq e, Tour.iterate_next_weight e, ?_, exists_lists_walk e, ?_⟩
  · intro rounds fewer done
    obtain ⟨-, left⟩ := Tour.iterate_next rounds ⟨[], [e]⟩
    rw [done, weightOfAll_singleton, weightOfAll] at left
    omega
  · intro place more x y reference here below
    exact here.eq_of_reference reference below

/-! A difference whose second part holds a placeholder and a query with columns of its own. -/

namespace NetAmount

def orders : Relation :=
  .select { id := ⟨1⟩, table := none, columns := some [.code "amount", .random] }

def fees : Expr :=
  .call "coalesce" [.placeholder ⟨0⟩ "fee", .subquery orders]

def net : Expr :=
  .binary .sub [.column ⟨orders, "amount"⟩, fees]

end NetAmount

open NetAmount in
theorem walk_preorder_of_net :
    net.walk = [net, .column ⟨orders, "amount"⟩, fees, .placeholder ⟨0⟩ "fee", .subquery orders] ∧
    Tour.next^[5] ⟨[], [net]⟩ = ⟨net.walk, []⟩ ∧ (Tour.next^[4] ⟨[], [net]⟩).stack ≠ [] ∧
    (∃ places, Lists net.Occurs places net.walk) ∧
    (Expr.subquery orders).IsReference ∧ net.Occurs [1, 1] (.subquery orders) ∧
    ∀ more y, net.Occurs ([1, 1] ++ more) y → more = [] := by
  obtain ⟨walk, last, earlier, places, ends⟩ := walk_preorder net
  have reference : (Expr.subquery orders).IsReference := .subquery orders
  have within : net.Occurs [1, 1] (.subquery orders) :=
    .under (.operand rfl) (.under (.argument rfl) .here)
  exact ⟨walk, last, earlier 4 (by decide), places, reference, within, fun more y below =>
    ends [1, 1] more _ y reference within below⟩

end SqlQuery.Expr
