import Mathlib.Data.List.Perm.Basic
import SqlQuery.ExprType.Unify

/-!
The common type of a list. It is found by comparing all types with one of them, but it can be said
of the members alone: a column type, if there is one, stands for all others. Main statement: a
common type exists if and only if all types agree with one another, and neither their order, nor
NULLs among them, nor merging a part of them first makes a difference.
-/

namespace SqlQuery

namespace SemanticType

/-- The one type of literals that a column type accepts, if any. -/
def accepted? : SemanticType → Option LiteralType
  | integer => some .int
  | float _ => some .float
  | decimal _ => some .float
  | text => some .text
  | uuid .text => some .text
  | boolean => some .bool
  | timestamp _ => some .timestamp
  | _ => none

theorem accepts_iff {s : SemanticType} {l : LiteralType} :
    s.accepts l = true ↔ s.accepted? = some l := by
  cases s with
  | uuid storage => cases storage <;> cases l <;> constructor <;> intro same <;> cases same <;> rfl
  | _ => cases l <;> constructor <;> intro same <;> cases same <;> rfl

end SemanticType

namespace ExprType

variable {a b t : ExprType} {xs ys : List ExprType} {context : String}

theorem agrees_refl (t : ExprType) : t.agrees t = true := by
  cases t <;> simp [agrees]

theorem agrees_comm (a b : ExprType) : a.agrees b = b.agrees a := by
  cases a <;> cases b <;> simp [agrees, Bool.beq_comm]

theorem isBinding_of_isNull (null : t.isNull = true) : t.isBinding = false := by
  simp [isBinding, null]

/-- Column types that agree are equal, and so are types of literals. -/
theorem eq_of_agrees (first : a.isBinding = true) (second : b.isBinding = true)
    (kind : a.semantic? = none ↔ b.semantic? = none) (agree : a.agrees b = true) : a = b := by
  cases a with
  | unknown => cases first
  | semantic s =>
      cases b with
      | unknown => cases second
      | semantic s' => exact congrArg semantic (by simpa [agrees] using agree)
      | literal l => simp [semantic?] at kind
  | literal l =>
      cases b with
      | unknown => cases second
      | semantic s => simp [semantic?] at kind
      | literal l' => exact congrArg literal (by simpa [agrees] using agree)

/-- Types that agree with a column type agree with one another. -/
theorem agrees_of_semantic {s : SemanticType} (first : a.agrees (semantic s) = true)
    (second : b.agrees (semantic s) = true) : a.agrees b = true := by
  cases a with
  | unknown => simp [agrees]
  | semantic s' =>
      have same : s' = s := by simpa [agrees] using first
      subst same
      rw [agrees_comm]
      exact second
  | literal l =>
      cases b with
      | unknown => simp [agrees]
      | semantic s' =>
          have same : s' = s := by simpa [agrees] using second
          subst same
          exact first
      | literal l' =>
          have accepted : s.accepted? = some l := SemanticType.accepts_iff.mp first
          have same : l = l' := by
            simpa [SemanticType.accepts_iff.mp second] using accepted.symm
          simp [agrees, same]

/-! The type that stands for the others. -/

/-- A member of a list that can stand for it: a column type, unless there is none. -/
structure Leads (types : List ExprType) (t : ExprType) : Prop where
  mem : t ∈ types
  binding : t.isBinding = true
  kind : t.semantic? = none → ∀ a ∈ types, a.isBinding = true → a.semantic? = none

structure Represents (types : List ExprType) (t : ExprType) : Prop extends Leads types t where
  agree : ∀ a ∈ types, a.isBinding = true → a.agrees t = true

/-- The common type of a list, whatever its order. -/
inductive Merges (types : List ExprType) : ExprType → Prop
  | shared {t : ExprType} : Represents types t → Merges types t
  | nulls : (∀ a ∈ types, a.isNull = true) → Merges types (literal .null)
  | unknown : (∀ a ∈ types, a.isBinding = false) → (∃ a ∈ types, a.isNull = false) →
      Merges types unknown

theorem Leads.eq_of_agrees (first : Leads xs a) (second : Leads xs b) (agree : a.agrees b = true) :
    a = b := by
  apply ExprType.eq_of_agrees first.binding second.binding _ agree
  constructor
  · intro none
    exact first.kind none b second.mem second.binding
  · intro none
    exact second.kind none a first.mem first.binding

theorem Merges.represents (merges : Merges xs t) (listed : a ∈ xs) (binding : a.isBinding = true) :
    Represents xs t := by
  cases merges with
  | shared represents => exact represents
  | nulls null =>
      rw [isBinding_of_isNull (null a listed)] at binding
      cases binding
  | unknown none _ =>
      rw [none a listed] at binding
      cases binding

theorem leads_of_representative? (found : representative? (xs.filter isBinding) = some t) :
    Leads xs t := by
  rw [representative?, Option.or_eq_some_iff] at found
  rcases found with column | ⟨none, first⟩
  · have listed := List.mem_filter.mp (List.mem_of_find?_eq_some column)
    have isColumn := List.find?_some column
    refine ⟨listed.1, listed.2, ?_⟩
    intro absent
    simp [absent] at isColumn
  · have listed := List.mem_filter.mp (List.mem_of_head? first)
    refine ⟨listed.1, listed.2, ?_⟩
    intro _ a among binding
    simpa using List.find?_eq_none.mp none a (List.mem_filter.mpr ⟨among, binding⟩)

theorem representative?_eq_none :
    representative? (xs.filter isBinding) = none ↔ ∀ a ∈ xs, a.isBinding = false := by
  have empty : xs.filter isBinding = [] ↔ ∀ a ∈ xs, a.isBinding = false := by
    simp only [List.filter_eq_nil_iff, Bool.not_eq_true]
  rw [representative?, Option.or_eq_none_iff, List.head?_eq_none_iff, ← empty]
  constructor
  · intro none
    exact none.2
  · intro none
    rw [none]
    exact ⟨rfl, rfl⟩

theorem unify_eq_ok : unify xs context = .ok t ↔ Merges xs t := by
  rw [unify]
  split
  · next shared found =>
      have leads := leads_of_representative? found
      have compared : (xs.filter isBinding).all (·.agrees shared) = true ↔
          ∀ a ∈ xs, a.isBinding = true → a.agrees shared = true := by
        simp only [List.all_eq_true, List.mem_filter, and_imp]
      constructor
      · intro unified
        split at unified
        · next agree =>
            cases unified
            exact .shared ⟨leads, compared.mp agree⟩
        · cases unified
      · intro merges
        have represents := merges.represents leads.mem leads.binding
        cases leads.eq_of_agrees represents.toLeads (represents.agree _ leads.mem leads.binding)
        rw [if_pos (compared.mpr represents.agree)]
  · next found =>
      have none := representative?_eq_none.mp found
      constructor
      · intro unified
        cases unified
        split
        · next null => exact .nulls (List.all_eq_true.mp null)
        · next known => exact .unknown none (by simpa using known)
      · intro merges
        cases merges with
        | shared represents =>
            have binding := represents.binding
            rw [none t represents.mem] at binding
            cases binding
        | nulls null => rw [if_pos (List.all_eq_true.mpr null)]
        | unknown _ known => rw [if_neg (by simpa using known)]

/-! Pairs of types. -/

theorem Represents.agrees_pair (represents : Represents xs t) (first : a ∈ xs)
    (firstBinding : a.isBinding = true) (second : b ∈ xs) (secondBinding : b.isBinding = true) :
    a.agrees b = true := by
  have agree := represents.agree
  cases t with
  | unknown => cases represents.binding
  | semantic s =>
      exact agrees_of_semantic (agree a first firstBinding) (agree b second secondBinding)
  | literal l =>
      -- without a column type all types are the same
      have same : ∀ c ∈ xs, c.isBinding = true → c = literal l := by
        intro c listed binding
        have kind := represents.kind rfl c listed binding
        exact eq_of_agrees binding represents.binding (iff_of_true kind rfl)
          (agree c listed binding)
      rw [same a first firstBinding, same b second secondBinding]
      exact agrees_refl _

theorem exists_merges_iff :
    (∃ t, Merges xs t) ↔ ∀ a ∈ xs, ∀ b ∈ xs, a.isBinding = true → b.isBinding = true →
      a.agrees b = true := by
  constructor
  · intro merged a first b second firstBinding secondBinding
    obtain ⟨t, merges⟩ := merged
    have represents := merges.represents first firstBinding
    exact represents.agrees_pair first firstBinding second secondBinding
  · intro agree
    cases found : representative? (xs.filter isBinding) with
    | some t =>
        have leads := leads_of_representative? found
        refine ⟨t, .shared ⟨leads, ?_⟩⟩
        intro a listed binding
        exact agree a listed t leads.mem binding leads.binding
    | none =>
        have none := representative?_eq_none.mp found
        by_cases null : ∀ a ∈ xs, a.isNull = true
        · exact ⟨_, .nulls null⟩
        · exact ⟨_, .unknown none (by simpa using null)⟩

/-! Lists with the same members. -/

theorem Represents.congr (binding : ∀ a, a.isBinding = true → (a ∈ xs ↔ a ∈ ys))
    (represents : Represents xs t) : Represents ys t where
  mem := (binding t represents.binding).mp represents.mem
  binding := represents.binding
  kind none a listed isBinding :=
    represents.kind none a ((binding a isBinding).mpr listed) isBinding
  agree a listed isBinding := represents.agree a ((binding a isBinding).mpr listed) isBinding

theorem Merges.congr (binding : ∀ a, a.isBinding = true → (a ∈ xs ↔ a ∈ ys))
    (nulls : (∀ a ∈ xs, a.isNull = true) ↔ ∀ a ∈ ys, a.isNull = true) (merges : Merges xs t) :
    Merges ys t := by
  cases merges with
  | shared represents => exact .shared (represents.congr binding)
  | nulls null => exact .nulls (nulls.mp null)
  | unknown none known =>
      refine .unknown ?_ ?_
      · intro a listed
        cases isBinding : a.isBinding with
        | false => rfl
        | true =>
            have absent := none a ((binding a isBinding).mpr listed)
            rw [isBinding] at absent
            exact absent
      · by_contra null
        have null : ∀ a ∈ ys, a.isNull = true := by simpa using null
        obtain ⟨a, listed, notNull⟩ := known
        rw [nulls.mpr null a listed] at notNull
        cases notNull

/-- A list is merged by the types in it that are compared, and by whether all are NULL. -/
theorem merges_congr (binding : ∀ a, a.isBinding = true → (a ∈ xs ↔ a ∈ ys))
    (nulls : (∀ a ∈ xs, a.isNull = true) ↔ ∀ a ∈ ys, a.isNull = true) :
    Merges xs t ↔ Merges ys t :=
  ⟨.congr binding nulls, .congr (fun a isBinding => (binding a isBinding).symm) nulls.symm⟩

theorem merges_perm (same : xs.Perm ys) : Merges xs t ↔ Merges ys t := by
  apply merges_congr
  · intro a _
    exact same.mem_iff
  · simp only [same.mem_iff]

theorem unify_filter_null (types : List ExprType) (context : String) :
    unify (types.filter (!·.isNull)) context = unify types context := by
  have compared : (types.filter (!·.isNull)).filter isBinding = types.filter isBinding := by
    rw [List.filter_filter]
    congr 1
    funext t
    cases null : t.isNull <;> simp [isBinding, null]
  have nulls : (types.filter (!·.isNull)).all isNull = true ↔ types.all isNull = true := by
    simp only [List.all_eq_true, List.mem_filter]
    constructor
    · intro none t listed
      by_contra known
      exact known (none t ⟨listed, by simpa using known⟩)
    · intro null t listed
      exact null t listed.1
  simp only [unify, compared, nulls]

/-! Parts of a list. -/

namespace Represents

variable {r : ExprType}

theorem cons_of_append (part : Represents xs r) (whole : Represents (xs ++ ys) t) :
    Represents (r :: ys) t := by
  have first : r ∈ xs ++ ys := List.mem_append_left ys part.mem
  have within : ∀ a ∈ r :: ys, a ∈ xs ++ ys := by
    intro a listed
    rcases List.mem_cons.mp listed with rfl | listed
    · exact first
    · exact List.mem_append_right xs listed
  refine ⟨⟨?_, whole.binding, fun none a listed => whole.kind none a (within a listed)⟩,
    fun a listed => whole.agree a (within a listed)⟩
  rcases List.mem_append.mp whole.mem with listed | listed
  · -- both are in the first part, so neither is a column type without the other
    have kind : r.semantic? = none ↔ t.semantic? = none :=
      ⟨fun none => part.kind none t listed whole.binding,
        fun none => whole.kind none r first part.binding⟩
    have same : r = t :=
      eq_of_agrees part.binding whole.binding kind (whole.agree r first part.binding)
    rw [same]
    exact List.mem_cons_self
  · exact List.mem_cons_of_mem r listed

theorem agrees_trans (part : Represents xs r) (rest : Represents (r :: ys) t) (listed : a ∈ xs)
    (binding : a.isBinding = true) : a.agrees t = true := by
  have first : r ∈ r :: ys := List.mem_cons_self
  by_cases column : r.semantic? = none
  · have kind := part.kind column a listed binding
    have same : a = r :=
      eq_of_agrees binding part.binding (iff_of_true kind column) (part.agree a listed binding)
    rw [same]
    exact rest.agree r first part.binding
  · have kind : t.semantic? ≠ none := fun none => column (rest.kind none r first part.binding)
    have same : r = t :=
      eq_of_agrees part.binding rest.binding (iff_of_false column kind)
        (rest.agree r first part.binding)
    rw [← same]
    exact part.agree a listed binding

theorem append_of_cons (part : Represents xs r) (rest : Represents (r :: ys) t) :
    Represents (xs ++ ys) t := by
  refine ⟨⟨?_, rest.binding, ?_⟩, ?_⟩
  · rcases List.mem_cons.mp rest.mem with rfl | listed
    · exact List.mem_append_left ys part.mem
    · exact List.mem_append_right xs listed
  · intro none a listed binding
    rcases List.mem_append.mp listed with listed | listed
    · have noColumn := rest.kind none r List.mem_cons_self part.binding
      exact part.kind noColumn a listed binding
    · exact rest.kind none a (List.mem_cons_of_mem r listed) binding
  · intro a listed binding
    rcases List.mem_append.mp listed with listed | listed
    · exact part.agrees_trans rest listed binding
    · exact rest.agree a (List.mem_cons_of_mem r listed) binding

end Represents

/-- The members of a part that are not compared can be left out of the comparison. -/
theorem merges_append_of_unbinding {r : ExprType} (none : ∀ a ∈ xs, a.isBinding = false)
    (unbinding : r.isBinding = false) (nulls : (∀ a ∈ xs, a.isNull = true) ↔ r.isNull = true) :
    Merges (xs ++ ys) t ↔ Merges (r :: ys) t := by
  apply merges_congr
  · intro a binding
    rw [List.mem_append, List.mem_cons]
    apply or_congr_left
    apply iff_of_false
    · intro listed
      rw [none a listed] at binding
      cases binding
    · rintro rfl
      rw [unbinding] at binding
      cases binding
  · rw [List.forall_mem_append, List.forall_mem_cons, nulls]

theorem Merges.append_iff {r : ExprType} (part : Merges xs r) :
    Merges (xs ++ ys) t ↔ Merges (r :: ys) t := by
  cases part with
  | shared part =>
      constructor
      · intro merges
        have whole := merges.represents (List.mem_append_left ys part.mem) part.binding
        exact .shared (part.cons_of_append whole)
      · intro merges
        have rest := merges.represents List.mem_cons_self part.binding
        exact .shared (part.append_of_cons rest)
  | nulls null =>
      apply merges_append_of_unbinding _ rfl
      · exact iff_of_true null rfl
      · intro a listed
        exact isBinding_of_isNull (null a listed)
  | unknown none known =>
      apply merges_append_of_unbinding none rfl
      apply iff_of_false _ Bool.false_ne_true
      intro null
      obtain ⟨a, listed, notNull⟩ := known
      rw [null a listed] at notNull
      cases notNull

theorem merges_append : Merges (xs ++ ys) t ↔ ∃ r, Merges xs r ∧ Merges (r :: ys) t := by
  constructor
  · intro merges
    have agree := exists_merges_iff.mp ⟨t, merges⟩
    obtain ⟨r, part⟩ : ∃ r, Merges xs r := by
      apply exists_merges_iff.mpr
      intro a first b second
      exact agree a (List.mem_append_left ys first) b (List.mem_append_left ys second)
    exact ⟨r, part, part.append_iff.mp merges⟩
  · intro merged
    obtain ⟨r, part, merges⟩ := merged
    exact part.append_iff.mpr merges

/-- Types have a common type if and only if every two that are known and not NULL agree. The common
type depends neither on the order of the types nor on NULLs among them, which do not change an error
either, and a part of the types can be merged first. -/
theorem unify_order_free (xs ys : List ExprType) (context : String) :
    ((∃ t, unify xs context = .ok t) ↔ ∀ a ∈ xs, ∀ b ∈ xs,
      a.isBinding = true → b.isBinding = true → a.agrees b = true) ∧
    (∀ zs, xs.Perm zs → ∀ t, unify xs context = .ok t ↔ unify zs context = .ok t) ∧
    (∀ zs, zs.filter (!·.isNull) = xs.filter (!·.isNull) → unify zs context = unify xs context) ∧
    ∀ t, unify (xs ++ ys) context = .ok t ↔
      ∃ r, unify xs context = .ok r ∧ unify (r :: ys) context = .ok t := by
  refine ⟨?_, ?_, ?_, ?_⟩
  · simp only [unify_eq_ok]
    exact exists_merges_iff
  · intro zs same t
    rw [unify_eq_ok, unify_eq_ok]
    exact merges_perm same
  · intro zs same
    rw [← unify_filter_null zs, same, unify_filter_null]
  · intro t
    simp only [unify_eq_ok]
    exact merges_append

def prices : List ExprType := [literal .float, unknown, semantic (.decimal 2)]

theorem unify_order_free_of_prices :
    unify prices "price" = .ok (semantic (.decimal 2)) ∧
    unify prices.reverse "price" = .ok (semantic (.decimal 2)) ∧
    unify (literal .null :: prices) "price" = .ok (semantic (.decimal 2)) ∧
    (∃ r, unify prices "price" = .ok r ∧
      unify [r, literal .float, literal .null] "price" = .ok (semantic (.decimal 2))) ∧
    ¬ ∃ t, unify (literal .int :: prices) "price" = .ok t := by
  have unified : unify prices "price" = .ok (semantic (.decimal 2)) := rfl
  obtain ⟨-, order, nulls, parts⟩ :=
    unify_order_free prices [literal .float, literal .null] "price"
  refine ⟨unified, ?_, ?_, (parts _).mp rfl, ?_⟩
  · exact (order _ prices.reverse_perm.symm _).mp unified
  · exact (nulls _ rfl).trans unified
  · intro found
    obtain ⟨pairs, -⟩ := unify_order_free (literal .int :: prices) [] "price"
    cases pairs.mp found (literal .int) (.head _) (literal .float) (.tail _ (.head _)) rfl rfl

end ExprType

end SqlQuery
