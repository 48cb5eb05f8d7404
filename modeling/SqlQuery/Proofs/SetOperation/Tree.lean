import SqlQuery.Operator

/-!
Trees of set operations, and the one among those with the same operands and operators in order
that SQL reads where there are no parentheses: INTERSECT binds tighter than the others, and equal
operators associate to the left.
-/

namespace SqlQuery

inductive SetTree (α : Type) where
  | leaf (a : α)
  | node (operator : SetOperator) (left right : SetTree α)
  deriving DecidableEq, Repr

/-- Operands in order; each but the first has an operator before it. -/
structure SetChain (α : Type) where
  first : α
  others : List (SetOperator × α)
  deriving DecidableEq, Repr

def SetOperator.isTight : SetOperator → Bool
  | intersect => true
  | _ => false

namespace SetTree

variable {α β : Type}

def map (f : α → β) : SetTree α → SetTree β
  | leaf a => leaf (f a)
  | node operator left right => node operator (left.map f) (right.map f)

def mapM {m : Type → Type} [Monad m] (f : α → m β) : SetTree α → m (SetTree β)
  | leaf a => do return leaf (← f a)
  | node operator left right => do
      let left ← left.mapM f
      return node operator left (← right.mapM f)

def leaves : SetTree α → List α
  | leaf a => [a]
  | node _ left right => left.leaves ++ right.leaves

def isLeaf : SetTree α → Bool
  | leaf _ => true
  | node _ _ _ => false

def chain : SetTree α → SetChain α
  | leaf a => ⟨a, []⟩
  | node operator left right =>
      ⟨left.chain.first, left.chain.others ++ (operator, right.chain.first) :: right.chain.others⟩

/-- Operands of INTERSECT only, grouped to the left. -/
def isTerm : SetTree α → Bool
  | leaf _ => true
  | node operator left right => operator.isTight && left.isTerm && right.isLeaf

/-- Grouped as it is read without parentheses. -/
def isGrouped : SetTree α → Bool
  | leaf _ => true
  | node operator left right =>
      if operator.isTight then left.isTerm && right.isLeaf else left.isGrouped && right.isTerm

inductive Forall₂ (R : α → β → Prop) : SetTree α → SetTree β → Prop
  | leaf {a : α} {b : β} : R a b → Forall₂ R (.leaf a) (.leaf b)
  | node {operator : SetOperator} {left right : SetTree α} {left' right' : SetTree β} :
      Forall₂ R left left' → Forall₂ R right right' →
        Forall₂ R (.node operator left right) (.node operator left' right')

end SetTree

namespace SetChain

variable {α β : Type}

def map (f : α → β) (c : SetChain α) : SetChain β :=
  ⟨f c.first, c.others.map fun (operator, a) => (operator, f a)⟩

def mapM (f : α → Option β) (c : SetChain α) : Option (SetChain β) :=
  (f c.first).bind fun first =>
    (c.others.mapM fun p => (f p.2).map fun b => (p.1, b)).map fun others => ⟨first, others⟩

/-- A term after what stands to the left of it. -/
def close : Option (SetTree α × SetOperator) → SetTree α → SetTree α
  | none, term => term
  | some (left, operator), term => .node operator left term

/-- Reads operators and operands from the left to the right, after a term that an INTERSECT would
still extend and what stands to the left of it. -/
def group (before : Option (SetTree α × SetOperator)) (term : SetTree α) :
    List (SetOperator × α) → SetTree α
  | [] => close before term
  | (operator, a) :: rest =>
      if operator.isTight then
        group before (.node operator term (.leaf a)) rest
      else
        group (some (close before term, operator)) (.leaf a) rest

/-- The tree that a chain without parentheses is read as. -/
def tree (c : SetChain α) : SetTree α :=
  group none (.leaf c.first) c.others

end SetChain

namespace SetTree

variable {α β : Type} {R : α → β → Prop} {t : SetTree α} {u : SetTree β}

namespace Forall₂

theorem isLeaf_eq (related : Forall₂ R t u) : t.isLeaf = u.isLeaf := by
  cases related <;> rfl

theorem isTerm_eq (related : Forall₂ R t u) : t.isTerm = u.isTerm := by
  induction related with
  | leaf _ => rfl
  | node _ right ihLeft _ => simp only [isTerm, ihLeft, right.isLeaf_eq]

theorem isGrouped_eq (related : Forall₂ R t u) : t.isGrouped = u.isGrouped := by
  induction related with
  | leaf _ => rfl
  | node left right ihLeft _ =>
      simp only [isGrouped, ihLeft, left.isTerm_eq, right.isTerm_eq, right.isLeaf_eq]

end Forall₂

theorem map_congr {f g : α → β} (same : ∀ a ∈ t.leaves, f a = g a) : t.map f = t.map g := by
  induction t with
  | leaf a => exact congrArg leaf (same a (List.mem_singleton_self a))
  | node operator left right ihLeft ihRight =>
      simp only [leaves, List.mem_append] at same
      rw [map, map, ihLeft fun a mem => same a (.inl mem), ihRight fun a mem => same a (.inr mem)]

end SetTree

namespace SetChain

variable {α β : Type}

theorem mapM_map {γ : Type} {f : β → Option γ} {g : α → β} {h : α → γ} {c : SetChain α}
    (first : f (g c.first) = some (h c.first))
    (others : ∀ p ∈ c.others, f (g p.2) = some (h p.2)) : (c.map g).mapM f = some (c.map h) := by
  obtain ⟨a, rest⟩ := c
  have mapped : ((rest.map fun (operator, a) => (operator, g a)).mapM
      fun p => (f p.2).map fun b => (p.1, b)) =
        some (rest.map fun (operator, a) => (operator, h a)) := by
    clear first
    induction rest with
    | nil => rfl
    | cons p rest ih =>
        obtain ⟨head, tail⟩ := List.forall_mem_cons.mp others
        simp only [List.map_cons, List.mapM_cons, head, ih tail, Option.pure_def, Option.map_some,
          Option.bind_eq_bind, Option.bind_some]
  simp only [mapM, map, first, mapped, Option.bind_some, Option.map_some]

theorem close_map (f : α → β) (before : Option (SetTree α × SetOperator)) (term : SetTree α) :
    close (before.map fun (left, operator) => (left.map f, operator)) (term.map f) =
      (close before term).map f := by
  cases before <;> rfl

theorem group_map (f : α → β) (before : Option (SetTree α × SetOperator)) (term : SetTree α)
    (rest : List (SetOperator × α)) :
    group (before.map fun (left, operator) => (left.map f, operator)) (term.map f)
        (rest.map fun (operator, a) => (operator, f a)) =
      (group before term rest).map f := by
  induction rest generalizing before term with
  | nil => exact close_map f before term
  | cons head rest ih =>
      obtain ⟨operator, a⟩ := head
      by_cases tight : operator.isTight
      · simp only [List.map_cons, group, if_pos tight]
        exact ih before (.node operator term (.leaf a))
      · simp only [List.map_cons, group, if_neg tight, close_map]
        exact ih (some (close before term, operator)) (.leaf a)

theorem tree_map (f : α → β) (c : SetChain α) : (c.map f).tree = c.tree.map f :=
  group_map f none (.leaf c.first) c.others

theorem group_term {term : SetTree α} (isTerm : term.isTerm)
    (before : Option (SetTree α × SetOperator)) (rest : List (SetOperator × α)) :
    group before (.leaf term.chain.first) (term.chain.others ++ rest) = group before term rest := by
  induction term generalizing rest with
  | leaf _ => rfl
  | node operator left right ihLeft _ =>
      simp only [SetTree.isTerm, Bool.and_eq_true] at isTerm
      obtain ⟨⟨tight, leftTerm⟩, rightLeaf⟩ := isTerm
      cases right with
      | node _ _ _ => exact absurd rightLeaf Bool.false_ne_true
      | leaf a =>
          simp only [SetTree.chain, List.append_assoc, List.cons_append, List.nil_append]
          rw [ihLeft leftTerm, group, if_pos tight]

/-- A grouped tree is what has been read when its operands have been. -/
theorem group_grouped {t : SetTree α} (grouped : t.isGrouped) :
    ∃ before term, close before term = t ∧ ∀ rest,
      group none (.leaf t.chain.first) (t.chain.others ++ rest) = group before term rest := by
  induction t with
  | leaf a => exact ⟨none, .leaf a, rfl, fun _ => rfl⟩
  | node operator left right ihLeft _ =>
      by_cases tight : operator.isTight
      · have isTerm : (SetTree.node operator left right).isTerm := by
          simp only [SetTree.isGrouped, if_pos tight] at grouped
          simpa only [SetTree.isTerm, tight, Bool.true_and] using grouped
        exact ⟨none, _, rfl, group_term isTerm none⟩
      · simp only [SetTree.isGrouped, if_neg tight, Bool.and_eq_true] at grouped
        obtain ⟨leftGrouped, rightTerm⟩ := grouped
        obtain ⟨before, term, closed, reads⟩ := ihLeft leftGrouped
        refine ⟨some (left, operator), right, rfl, ?_⟩
        intro rest
        simp only [SetTree.chain, List.append_assoc, List.cons_append]
        rw [reads, group, if_neg tight, closed, group_term rightTerm]

def Pending : Option (SetTree α × SetOperator) → Prop
  | none => True
  | some (left, operator) => left.isGrouped ∧ operator.isTight = false

theorem isGrouped_close {before : Option (SetTree α × SetOperator)} {term : SetTree α}
    (pending : Pending before) (isTerm : term.isTerm) : (close before term).isGrouped := by
  cases before with
  | none =>
      cases term with
      | leaf _ => rfl
      | node operator left right =>
          simp only [SetTree.isTerm, Bool.and_eq_true] at isTerm
          simp only [close, SetTree.isGrouped, isTerm, if_true, Bool.and_self]
  | some pair =>
      obtain ⟨grouped, loose⟩ := pending
      simp only [close, SetTree.isGrouped, loose, grouped, isTerm, Bool.false_eq_true, if_false,
        Bool.and_self]

theorem isGrouped_group {before : Option (SetTree α × SetOperator)} {term : SetTree α}
    (pending : Pending before) (isTerm : term.isTerm) (rest : List (SetOperator × α)) :
    (group before term rest).isGrouped := by
  induction rest generalizing before term with
  | nil => exact isGrouped_close pending isTerm
  | cons head rest ih =>
      obtain ⟨operator, a⟩ := head
      by_cases tight : operator.isTight
      · rw [group, if_pos tight]
        apply ih pending
        simp only [SetTree.isTerm, tight, isTerm, SetTree.isLeaf, Bool.and_self]
      · rw [group, if_neg tight]
        exact ih ⟨isGrouped_close pending isTerm, Bool.eq_false_iff.mpr tight⟩ rfl

end SetChain

/-- A tree is read from its operands and operators exactly if it is grouped as they are read. -/
theorem SetTree.tree_chain_iff {α : Type} (t : SetTree α) : t.chain.tree = t ↔ t.isGrouped := by
  constructor
  · intro same
    rw [← same]
    have pending : SetChain.Pending (none : Option (SetTree α × SetOperator)) := trivial
    exact SetChain.isGrouped_group pending rfl _
  · intro grouped
    obtain ⟨before, term, closed, reads⟩ := SetChain.group_grouped grouped
    have whole := reads []
    rw [List.append_nil] at whole
    rw [SetChain.tree, whole, SetChain.group, closed]

end SqlQuery
