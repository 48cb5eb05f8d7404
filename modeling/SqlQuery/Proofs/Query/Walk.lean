import SqlQuery.Query.Walk

/-!
The walk through an expression as a recursion: a node, then the walks of its children. It reaches
every node of the expression, and no other one.
-/

namespace SqlQuery.Expr

/-- The nodes of an expression: itself, and the nodes of its children. -/
inductive Within (x : Expr) : Expr → Prop
  | self : Within x x
  | child {e c : Expr} : c ∈ e.children → Within x c → Within x e

theorem within_iff {x e : Expr} : x.Within e ↔ x = e ∨ ∃ c ∈ e.children, x.Within c := by
  constructor
  · intro within
    cases within with
    | self => exact .inl rfl
    | child listed inner => exact .inr ⟨_, listed, inner⟩
  · rintro (rfl | ⟨c, listed, inner⟩)
    · exact .self
    · exact .child listed inner

/-! Weights. -/

theorem weightOfAll_append (first second : List Expr) :
    weightOfAll (first ++ second) = weightOfAll first + weightOfAll second := by
  induction first with
  | nil => simp only [List.nil_append, weightOfAll, Nat.zero_add]
  | cons e first ih => simp only [List.cons_append, weightOfAll, ih, Nat.add_assoc]

theorem weightOfBranches_eq (branches : List (BranchOf Expr)) :
    weightOfBranches branches =
      weightOfAll (branches.flatMap fun b => [b.condition, b.result]) := by
  induction branches with
  | nil => rfl
  | cons branch rest ih =>
      obtain ⟨condition, result⟩ := branch
      simp only [List.flatMap_cons, List.cons_append, List.nil_append, weightOfBranches,
        weightOfAll, ih, Nat.add_assoc]

theorem weight_eq (e : Expr) : e.weight = weightOfAll e.children + 1 := by
  cases e with
  | count argument distinct =>
      cases argument with
      | none => rfl
      | some e => simp only [weight, children, Option.toList, weightOfAll, Nat.add_zero]
  | case c =>
      obtain ⟨branches, otherwise⟩ := c
      cases otherwise with
      | none =>
          simp only [weight, children, Option.toList, List.append_nil, weightOfBranches_eq]
      | some e =>
          simp only [weight, children, Option.toList, weightOfAll_append, weightOfAll,
            weightOfBranches_eq, Nat.add_zero]
  | isDistinctFrom left right =>
      simp only [weight, children, weightOfAll, Nat.add_zero]
  | isIn e list => simp only [weight, children, weightOfAll]
  | aliased e name => simp only [weight, children, weightOfAll, Nat.add_zero]
  | negate e => simp only [weight, children, weightOfAll, Nat.add_zero]
  | cast e type => simp only [weight, children, weightOfAll, Nat.add_zero]
  | _ => simp only [weight, children, weightOfAll]

theorem weight_lt_of_child {e c : Expr} (listed : c ∈ e.children) : c.weight < e.weight := by
  have bounded : ∀ es : List Expr, c ∈ es → c.weight ≤ weightOfAll es := by
    intro es mem
    induction es with
    | nil => cases mem
    | cons d es ih =>
        rw [weightOfAll]
        rcases List.mem_cons.mp mem with rfl | later
        · exact Nat.le_add_right _ _
        · exact Nat.le_trans (ih later) (Nat.le_add_left _ _)
  rw [weight_eq e]
  exact Nat.lt_succ_of_le (bounded e.children listed)

/-- Induction from the children of an expression to the expression. -/
theorem children_induction {P : Expr → Prop} (step : ∀ e, (∀ c ∈ e.children, P c) → P e)
    (e : Expr) : P e := by
  induction weight : e.weight using Nat.strongRecOn generalizing e with
  | ind n ih =>
      refine step e ?_
      intro c listed
      exact ih c.weight (weight ▸ weight_lt_of_child listed) c rfl

/-! The recursion behind the stack. -/

theorem walkStack_append (first second : List Expr) :
    walkStack (weightOfAll first + weightOfAll second) (first ++ second) =
      walkStack (weightOfAll first) first ++ walkStack (weightOfAll second) second := by
  -- by induction on the weight of the first list, which loses one with every node visited
  induction weight : weightOfAll first generalizing first with
  | zero =>
      cases first with
      | nil => simp only [List.nil_append, walkStack, Nat.zero_add]
      | cons e first =>
          rw [weightOfAll, weight_eq] at weight
          omega
  | succ n ih =>
      cases first with
      | nil => cases weight
      | cons e first =>
          have less : weightOfAll (e.children ++ first) = n := by
            rw [weightOfAll, weight_eq] at weight
            rw [weightOfAll_append]
            omega
          have rest := ih (e.children ++ first) less
          rw [List.append_assoc] at rest
          rw [List.cons_append, Nat.succ_add, walkStack, walkStack, rest, List.cons_append]

theorem weightOfAll_singleton (e : Expr) : weightOfAll [e] = e.weight := by
  rw [weightOfAll, weightOfAll, Nat.add_zero]

theorem walkStack_eq_flatMap (stack : List Expr) :
    walkStack (weightOfAll stack) stack = stack.flatMap walk := by
  induction stack with
  | nil => rfl
  | cons e stack ih =>
      have split := walkStack_append [e] stack
      rw [weightOfAll_singleton, ih] at split
      rw [List.flatMap_cons]
      exact split

theorem walk_eq (e : Expr) : e.walk = e :: e.children.flatMap walk := by
  rw [walk, weight_eq, walkStack, List.append_nil, walkStack_eq_flatMap]

/-! The nodes that the walk reaches. -/

theorem mem_walk {x e : Expr} : x ∈ e.walk ↔ x.Within e := by
  induction e using children_induction with
  | step e ih =>
      rw [walk_eq, List.mem_cons, List.mem_flatMap, within_iff]
      constructor
      · rintro (same | ⟨c, listed, inner⟩)
        · exact .inl same
        · exact .inr ⟨c, listed, (ih c listed).mp inner⟩
      · rintro (same | ⟨c, listed, inner⟩)
        · exact .inl same
        · exact .inr ⟨c, listed, (ih c listed).mpr inner⟩

end SqlQuery.Expr
