import Mathlib.Data.List.Sort

/-!
Ordering and the removal of duplicates. The first of equal rows is kept, and ordering is stable:
the two commute with each other and with taking some of the rows, and with a change of the rows
that keeps what they depend on.
-/

namespace SqlQuery.Rows

/-! Duplicates. -/

section Duplicates

variable {α β : Type} [BEq α] [LawfulBEq α] [BEq β] [LawfulBEq β]

theorem filter_ne_filter {p : α → Bool} {a : α} (fails : p a = false) (l : List α) :
    (l.filter (!· == a)).filter p = l.filter p := by
  rw [List.filter_filter]
  apply List.filter_congr
  intro b _
  by_cases same : b = a
  · rw [same, fails, Bool.false_and]
  · rw [beq_false_of_ne same, Bool.not_false, Bool.and_true]

theorem eraseDups_filter (p : α → Bool) (l : List α) :
    (l.filter p).eraseDups = l.eraseDups.filter p := by
  match l with
  | [] => rfl
  | a :: l =>
      have shorter := List.length_filter_le (!· == a) l
      have inner := eraseDups_filter p (l.filter (!· == a))
      by_cases passes : p a
      · rw [List.filter_cons_of_pos passes, List.eraseDups_cons, List.eraseDups_cons,
          List.filter_cons_of_pos passes, ← inner]
        simp only [List.filter_filter, Bool.and_comm]
      · rw [List.filter_cons_of_neg passes, List.eraseDups_cons, List.filter_cons_of_neg passes,
          ← inner, filter_ne_filter (Bool.eq_false_iff.mpr passes)]
termination_by l.length

theorem eraseDups_cons_filter (a : α) (l : List α) :
    (a :: l).eraseDups = a :: l.eraseDups.filter (!· == a) := by
  rw [List.eraseDups_cons, eraseDups_filter]

theorem eraseDups_sublist (l : List α) : l.eraseDups.Sublist l := by
  induction l with
  | nil => exact .slnil
  | cons a l ih =>
      rw [eraseDups_cons_filter]
      exact (List.filter_sublist.trans ih).cons_cons a

omit [LawfulBEq α] in
theorem head?_eraseDups (l : List α) : l.eraseDups.head? = l.head? := by
  cases l with
  | nil => rfl
  | cons a l => rw [List.eraseDups_cons, List.head?_cons, List.head?_cons]

theorem eraseDups_map_eraseDups (f : α → β) (l : List α) :
    (l.eraseDups.map f).eraseDups = (l.map f).eraseDups := by
  induction l with
  | nil => rfl
  | cons a l ih =>
      rw [eraseDups_cons_filter, List.map_cons, List.map_cons, eraseDups_cons_filter,
        eraseDups_cons_filter, ← ih]
      congr 1
      -- the rows that are the same as the first before the change are the same after it
      calc ((l.eraseDups.filter (!· == a)).map f).eraseDups.filter (!· == f a)
        _ = (((l.eraseDups.filter (!· == a)).map f).filter (!· == f a)).eraseDups :=
          (eraseDups_filter _ _).symm
        _ = ((l.eraseDups.map f).filter (!· == f a)).eraseDups := by
          rw [List.filter_map, List.filter_map, filter_ne_filter]
          simp only [Function.comp_apply, beq_self_eq_true, Bool.not_true]
        _ = (l.eraseDups.map f).eraseDups.filter (!· == f a) := eraseDups_filter _ _

theorem eraseDups_idem (l : List α) : l.eraseDups.eraseDups = l.eraseDups := by
  have same := eraseDups_map_eraseDups id l
  rwa [List.map_id, List.map_id] at same

theorem eraseDups_map_of_injOn {f : α → β} {l : List α}
    (injective : ∀ a ∈ l, ∀ b ∈ l, f a = f b → a = b) :
    (l.map f).eraseDups = l.eraseDups.map f := by
  induction l with
  | nil => rfl
  | cons a l ih =>
      have tail : ∀ b ∈ l, ∀ c ∈ l, f b = f c → b = c := fun b memB c memC =>
        injective b (List.mem_cons_of_mem a memB) c (List.mem_cons_of_mem a memC)
      rw [List.map_cons, eraseDups_cons_filter, eraseDups_cons_filter, ih tail, List.filter_map,
        List.map_cons]
      congr 2
      apply List.filter_congr
      intro b mem
      have listed := List.mem_cons_of_mem a ((eraseDups_sublist l).subset mem)
      have same : f b = f a ↔ b = a :=
        ⟨injective b listed a List.mem_cons_self, congrArg f⟩
      rw [Bool.eq_iff_iff]
      simp only [Function.comp_apply, Bool.not_eq_true', beq_eq_false_iff_ne, ne_eq, same]

end Duplicates

/-! Stable ordering. -/

section Ordering

variable {α β : Type} {r : α → α → Prop} [DecidableRel r]

theorem orderedInsert_of_forall {a : α} {l : List α} (least : ∀ b ∈ l, r a b) :
    l.orderedInsert r a = a :: l := by
  cases l with
  | nil => rfl
  | cons b l => exact List.orderedInsert_cons_of_le r l (least b List.mem_cons_self)

omit [DecidableRel r] in
theorem least_of_pairwise [IsTrans α r] {a b : α} {l : List α} (sorted : (b :: l).Pairwise r)
    (before : r a b) : ∀ c ∈ b :: l, r a c := by
  obtain ⟨first, _⟩ := List.pairwise_cons.mp sorted
  intro c mem
  rcases List.mem_cons.mp mem with rfl | later
  · exact before
  · exact IsTrans.trans a b c before (first c later)

theorem filter_orderedInsert_of_neg {p : α → Bool} {a : α} (fails : ¬ p a) (l : List α) :
    (l.orderedInsert r a).filter p = l.filter p := by
  induction l with
  | nil => exact List.filter_cons_of_neg fails
  | cons b l ih =>
      by_cases before : r a b
      · rw [List.orderedInsert_cons_of_le r l before, List.filter_cons_of_neg fails]
      · rw [List.orderedInsert_of_not_le r l before, List.filter_cons, List.filter_cons, ih]

theorem filter_orderedInsert_of_pos [IsTrans α r] (p : α → Bool) {a : α} (passes : p a)
    {l : List α} (sorted : l.Pairwise r) :
    (l.orderedInsert r a).filter p = (l.filter p).orderedInsert r a := by
  induction l with
  | nil => exact List.filter_cons_of_pos passes
  | cons b l ih =>
      by_cases before : r a b
      · have least : ∀ c ∈ (b :: l).filter p, r a c := fun c mem =>
          least_of_pairwise sorted before c (List.mem_of_mem_filter mem)
        rw [List.orderedInsert_cons_of_le r l before, List.filter_cons_of_pos passes,
          orderedInsert_of_forall least]
      · rw [List.orderedInsert_of_not_le r l before, List.filter_cons, List.filter_cons,
          ih sorted.of_cons]
        split
        · rw [List.orderedInsert_of_not_le r _ before]
        · rfl

theorem filter_insertionSort [Std.Total r] [IsTrans α r] (p : α → Bool) (l : List α) :
    (l.insertionSort r).filter p = (l.filter p).insertionSort r := by
  induction l with
  | nil => rfl
  | cons a l ih =>
      rw [List.insertionSort_cons]
      by_cases passes : p a
      · rw [filter_orderedInsert_of_pos p passes (List.pairwise_insertionSort r l), ih,
          List.filter_cons_of_pos passes, List.insertionSort_cons]
      · rw [filter_orderedInsert_of_neg passes, ih, List.filter_cons_of_neg passes]

section

variable [BEq α] [LawfulBEq α] [Std.Total r] [IsTrans α r]

theorem eraseDups_orderedInsert (a : α) {l : List α} (sorted : l.Pairwise r) :
    (l.orderedInsert r a).eraseDups = (l.eraseDups.filter (!· == a)).orderedInsert r a := by
  induction l with
  | nil => rfl
  | cons b l ih =>
      by_cases before : r a b
      · have least : ∀ c ∈ (b :: l).eraseDups.filter (!· == a), r a c := fun c mem =>
          least_of_pairwise sorted before c
            ((eraseDups_sublist (b :: l)).subset (List.mem_of_mem_filter mem))
        rw [List.orderedInsert_cons_of_le r l before, eraseDups_cons_filter,
          orderedInsert_of_forall least]
      · have other : ¬ a = b := by
          rintro rfl
          exact before (refl_of r a)
        have sortedRest : (l.eraseDups.filter (!· == a)).Pairwise r :=
          sorted.of_cons.sublist (List.filter_sublist.trans (eraseDups_sublist l))
        have passes : (!a == b) = true := by
          rw [beq_false_of_ne other, Bool.not_false]
        have listed : (!b == a) = true := by
          rw [beq_false_of_ne (Ne.symm other), Bool.not_false]
        rw [List.orderedInsert_of_not_le r l before, eraseDups_cons_filter, ih sorted.of_cons,
          filter_orderedInsert_of_pos (!· == b) passes sortedRest, eraseDups_cons_filter,
          List.filter_cons, if_pos listed, List.orderedInsert_of_not_le r _ before]
        simp only [List.filter_filter, Bool.and_comm]

theorem eraseDups_insertionSort (l : List α) :
    (l.insertionSort r).eraseDups = l.eraseDups.insertionSort r := by
  induction l with
  | nil => rfl
  | cons a l ih =>
      rw [List.insertionSort_cons, eraseDups_orderedInsert a (List.pairwise_insertionSort r l), ih,
        filter_insertionSort, eraseDups_cons_filter, List.insertionSort_cons]

end

section

variable {s : β → β → Prop} [DecidableRel s] [Std.Total s]

theorem map_orderedInsert_of_agree {f : α → β} {a : α} {l : List α} (sorted : l.Pairwise r)
    (agree : ∀ b ∈ a :: l, ∀ c ∈ a :: l, f b ≠ f c → (r b c ↔ s (f b) (f c))) :
    (l.orderedInsert r a).map f = (l.map f).orderedInsert s (f a) := by
  have keeps : ∀ b ∈ a :: l, ∀ c ∈ a :: l, r b c → s (f b) (f c) := by
    intro b memB c memC before
    by_cases same : f b = f c
    · rw [same]
      exact refl_of s (f c)
    · exact (agree b memB c memC same).mp before
  induction l with
  | nil => rfl
  | cons b l ih =>
      have fewer : a :: l ⊆ a :: b :: l :=
        List.cons_subset_cons a (List.subset_cons_self b l)
      have rest := ih sorted.of_cons
        (fun c memC d memD => agree c (fewer memC) d (fewer memD))
        (fun c memC d memD => keeps c (fewer memC) d (fewer memD))
      have memA : a ∈ a :: b :: l := List.mem_cons_self
      have memB : b ∈ a :: b :: l := List.mem_cons_of_mem a List.mem_cons_self
      rw [List.map_cons]
      by_cases before : r a b
      · rw [List.orderedInsert_cons_of_le r l before,
          List.orderedInsert_cons_of_le s _ (keeps a memA b memB before)]
        rfl
      · rw [List.orderedInsert_of_not_le r l before, List.map_cons, rest]
        by_cases same : f a = f b
        · -- the row passes the one that it becomes the same as, and then no other
          have least : ∀ c ∈ l.map f, s (f a) c := by
            intro c mem
            obtain ⟨d, listed, rfl⟩ := List.mem_map.mp mem
            rw [same]
            exact keeps b memB d (List.mem_cons_of_mem a (List.mem_cons_of_mem b listed))
              ((List.pairwise_cons.mp sorted).1 d listed)
          have front : s (f a) (f b) := same ▸ refl_of s (f a)
          rw [orderedInsert_of_forall least, List.orderedInsert_cons_of_le s _ front, same]
        · have later : ¬ s (f a) (f b) := fun after => before ((agree a memA b memB same).mpr after)
          rw [List.orderedInsert_of_not_le s _ later]

/-- A change of rows keeps the order of a list if it keeps the order of any two rows that are not
the same after it. -/
theorem map_insertionSort_of_agree [Std.Total r] [IsTrans α r] {f : α → β} {l : List α}
    (agree : ∀ b ∈ l, ∀ c ∈ l, f b ≠ f c → (r b c ↔ s (f b) (f c))) :
    (l.insertionSort r).map f = (l.map f).insertionSort s := by
  induction l with
  | nil => rfl
  | cons a l ih =>
      have fewer : l ⊆ a :: l := List.subset_cons_self a l
      have inserted : ∀ b ∈ a :: l.insertionSort r, b ∈ a :: l := by
        intro b mem
        simpa only [List.mem_cons, List.mem_insertionSort] using mem
      rw [List.insertionSort_cons, map_orderedInsert_of_agree (List.pairwise_insertionSort r l)
        fun b memB c memC => agree b (inserted b memB) c (inserted c memC)]
      rw [ih fun b memB c memC => agree b (fewer memB) c (fewer memC), List.map_cons,
        List.insertionSort_cons]

end

end Ordering

end SqlQuery.Rows
