import Mathlib.Data.Finset.Card
import Mathlib.Data.Finset.Filter
import Mathlib.Order.Monotone.Basic
import SqlQuery.Proofs.Outcome
import SqlQuery.Query.Typing

/-!
Types and schemas under an interpretation that knows more. A type that was found stays, and so does
a schema. A store that binds more placeholders gives such an interpretation, and so does a longer
way along the bindings of one store; the way that the meaning of a store takes is long enough for
all the types that there are to find.
-/

namespace Except

variable {ε α β : Type} {x y : Except ε α}

/-- A result of the first computation is the result of the second one. -/
def KeptIn (x y : Except ε α) : Prop :=
  ∀ a, x = .ok a → y = .ok a

namespace KeptIn

theorem refl (x : Except ε α) : x.KeptIn x :=
  fun _ given => given

theorem error (e : ε) (y : Except ε α) : KeptIn (.error e) y := by
  intro a impossible
  cases impossible

theorem bind {f g : α → Except ε β} (first : x.KeptIn y)
    (rest : ∀ a, x = .ok a → (f a).KeptIn (g a)) : (x >>= f).KeptIn (y >>= g) := by
  intro b whole
  obtain ⟨a, given, rest'⟩ := Except.bind_eq_ok.mp whole
  exact Except.bind_eq_ok.mpr ⟨a, first a given, rest a given b rest'⟩

theorem followed {f : α → Except ε β} (first : x.KeptIn y) : (x >>= f).KeptIn (y >>= f) :=
  first.bind fun a _ => refl (f a)

end KeptIn

end Except

namespace SqlQuery

open Except (KeptIn)

/-! The schemas of relations from those of their sources. -/

section Equations

variable (env : Interpretation)

/-- The schema of columns that are selected from a relation with the given one. -/
def Expr.selectedIn (columns : List Expr) : Option Schema → Except Error (Option Schema)
  | none => .ok none
  | some base => do return some (← Expr.columnsIn env base.emptyLike 1 columns)

theorem Relation.schemaIn_join (id : RelationId) (first : Relation) (rest : List Relation)
    (kind : JoinKind) (on columns : List Expr) :
    (Relation.join ⟨id, first :: rest, kind, on, some columns⟩).schemaIn env =
      first.schemaIn env >>= Expr.selectedIn env columns := by
  rw [Relation.schemaIn]
  rfl

theorem Relation.schemaIn_select {s : Select} {source : Relation} {columns : List Expr}
    (given : s.table = some source) (listed : s.columns = some columns) :
    (Relation.select s).schemaIn env = source.schemaIn env >>= Expr.selectedIn env columns := by
  obtain ⟨_, table, _, _, _, _, _, _, _⟩ := s
  cases given
  cases listed
  rw [Relation.schemaIn]
  rfl

theorem Relation.schemaIn_select_all {s : Select} {source : Relation}
    (given : s.table = some source) (all : s.columns = none) :
    (Relation.select s).schemaIn env = source.schemaIn env := by
  obtain ⟨_, table, _, _, _, _, _, _, _⟩ := s
  cases given
  cases all
  rw [Relation.schemaIn]

end Equations

namespace Interpretation

/-- The types of the first interpretation are those of the second one, and what has a type in the
first has the same name in both. -/
structure Within (env later : Interpretation) : Prop where
  type : ∀ id name, (env.type id name).KeptIn (later.type id name)
  name : ∀ id name t, env.type id name = .ok t → later.name id = env.name id

theorem Within.trans {first second third : Interpretation} (left : first.Within second)
    (right : second.Within third) : first.Within third := by
  constructor
  · intro id name t typed
    exact right.type id name t (left.type id name t typed)
  · intro id name t typed
    rw [right.name id name t (left.type id name t typed), left.name id name t typed]

end Interpretation

variable {env later : Interpretation}

theorem Expr.nameIn_of_within (within : env.Within later) {e : Expr} {t : ExprType}
    (typed : e.typeIn env = .ok t) : e.nameIn later = e.nameIn env := by
  cases e with
  | placeholder id name => exact within.name id name t typed
  | _ => rfl

mutual

theorem Expr.typeIn_kept (within : env.Within later) :
    (e : Expr) → (e.typeIn env).KeptIn (e.typeIn later)
  | .value _ => .refl _
  | .code _ => .refl _
  | .column ⟨source, _⟩ => by
      rw [Expr.typeIn, Expr.typeIn]
      exact (source.schemaIn_kept within).followed
  | .placeholder id name => within.type id name
  | .aliased e _ => by
      rw [Expr.typeIn, Expr.typeIn]
      exact e.typeIn_kept within
  | .concat _ _ => .refl _
  | .count _ _ => .refl _
  | .call _ _ => .refl _
  | .case ⟨branches, none⟩ => by
      rw [Expr.typeIn, Expr.typeIn]
      exact (Expr.branchTypesIn_kept within branches).followed
  | .case ⟨branches, some e⟩ => by
      rw [Expr.typeIn, Expr.typeIn]
      apply (Expr.branchTypesIn_kept within branches).bind
      intro results _
      exact (e.typeIn_kept within).followed
  | .isDistinctFrom _ _ => .refl _
  | .binary operator arguments => by
      rw [Expr.typeIn, Expr.typeIn]
      split
      · exact (Expr.typesIn_kept within arguments).followed
      · exact .refl _
  | .negate e => by
      rw [Expr.typeIn, Expr.typeIn]
      exact e.typeIn_kept within
  | .isIn _ _ => .refl _
  | .cast _ _ => .refl _
  | .random => .refl _
  | .currentTimestamp => .refl _
  | .param _ => .refl _
  | .subquery _ => .refl _

theorem Expr.typesIn_kept (within : env.Within later) :
    (es : List Expr) → (Expr.typesIn env es).KeptIn (Expr.typesIn later es)
  | [] => .refl _
  | e :: rest => by
      rw [Expr.typesIn, Expr.typesIn]
      apply (e.typeIn_kept within).bind
      intro type _
      exact (Expr.typesIn_kept within rest).followed

theorem Expr.branchTypesIn_kept (within : env.Within later) :
    (branches : List (BranchOf Expr)) →
      (Expr.branchTypesIn env branches).KeptIn (Expr.branchTypesIn later branches)
  | [] => .refl _
  | ⟨_, result⟩ :: rest => by
      rw [Expr.branchTypesIn, Expr.branchTypesIn]
      apply (result.typeIn_kept within).bind
      intro type _
      exact (Expr.branchTypesIn_kept within rest).followed

theorem Expr.columnsIn_kept (within : env.Within later) (schema : Schema) (position : Nat) :
    (es : List Expr) →
      (Expr.columnsIn env schema position es).KeptIn (Expr.columnsIn later schema position es)
  | [] => .refl _
  | e :: rest => by
      intro result given
      rw [Expr.columnsIn] at given ⊢
      -- The name comes before the type, but it is settled only for what has a type.
      cases typed : e.typeIn env with
      | error e' =>
          rw [typed] at given
          split at given <;> cases given
      | ok type =>
          rw [Expr.nameIn_of_within within typed, e.typeIn_kept within type typed]
          rw [typed] at given
          cases named : e.nameIn env with
          | none =>
              rw [named] at given
              cases given
          | some name =>
              rw [named] at given
              exact Expr.columnsIn_kept within _ (position + 1) rest result given

theorem Expr.selectedIn_kept (within : env.Within later) (columns : List Expr) :
    (base : Option Schema) →
      (Expr.selectedIn env columns base).KeptIn (Expr.selectedIn later columns base)
  | none => .refl _
  | some _ => (Expr.columnsIn_kept within _ 1 columns).followed

theorem Relation.schemaIn_kept (within : env.Within later) :
    (r : Relation) → (r.schemaIn env).KeptIn (r.schemaIn later)
  | .table _ => .refl _
  | .aliased ⟨_, source, _⟩ => source.schemaIn_kept within
  | .join ⟨_, _, _, _, none⟩ => .error _ _
  | .join ⟨_, [], _, _, some _⟩ => .refl _
  | .join ⟨_, first :: _, _, _, some columns⟩ => by
      rw [Relation.schemaIn_join, Relation.schemaIn_join]
      apply (first.schemaIn_kept within).bind
      intro base _
      exact Expr.selectedIn_kept within columns base
  | .grouping ⟨_, table, keys, values, _⟩ => by
      rw [Relation.schemaIn, Relation.schemaIn]
      apply (table.schemaIn_kept within).bind
      intro base _
      cases base with
      | none => exact .refl _
      | some base =>
          apply (Expr.columnsIn_kept within _ 1 keys).bind
          intro keyed _
          exact (Expr.columnsIn_kept within keyed _ values).followed
  | .setOperation ⟨_, _, left, right⟩ => by
      rw [Relation.schemaIn, Relation.schemaIn]
      apply (left.schemaIn_kept within).bind
      intro leftSchema _
      exact (right.schemaIn_kept within).followed
  | .select ⟨_, none, _, _, _, _, _, _, _⟩ => .refl _
  | .select ⟨_, some table, none, _, _, _, _, _, _⟩ => by
      rw [Relation.schemaIn_select_all env rfl rfl, Relation.schemaIn_select_all later rfl rfl]
      exact table.schemaIn_kept within
  | .select ⟨_, some table, some columns, _, _, _, _, _, _⟩ => by
      rw [Relation.schemaIn_select env rfl rfl, Relation.schemaIn_select later rfl rfl]
      apply (table.schemaIn_kept within).bind
      intro base _
      exact Expr.selectedIn_kept within columns base
  | .cte ⟨_, source, _, _⟩ => source.schemaIn_kept within
  | .param _ => .refl _

end

/-! Along the bindings of a store. -/

namespace Store

/-- The second store binds what the first one binds, and perhaps more. -/
def Within (store later : Store) : Prop :=
  ∀ id e, store.binding? id = some e → later.binding? id = some e

theorem Within.refl (store : Store) : store.Within store :=
  fun _ _ binding => binding

theorem Within.resolve {store later : Store} (within : store.Within later) (id : PlaceholderId)
    (name : String) : (store.resolve id name).KeptIn (later.resolve id name) := by
  intro e found
  rw [Store.resolve] at found ⊢
  split at found
  · next binding =>
      rw [within id _ binding]
      exact found
  · cases found

variable {store later : Store}

theorem interpretation_zero_within (env : Interpretation) :
    (store.interpretation 0).Within env := by
  have untyped : ∀ id name t, (store.interpretation 0).type id name ≠ .ok t := by
    intro id name t typed
    change (discard (store.resolve id name) >>= fun _ => Except.error Error.unending) = _ at typed
    cases found : store.resolve id name <;> rw [found] at typed <;> cases typed
  exact ⟨fun id name t typed => absurd typed (untyped id name t),
    fun id name t typed => absurd typed (untyped id name t)⟩

theorem interpretation_succ_within {n m : Nat} (within : store.Within later)
    (shorter : (store.interpretation n).Within (later.interpretation m)) :
    (store.interpretation (n + 1)).Within (later.interpretation (m + 1)) := by
  constructor
  · intro id name
    apply (within.resolve id name).bind
    intro e _
    exact e.typeIn_kept shorter
  · intro id name t typed
    simp only [interpretation, resolve] at typed ⊢
    cases binding : store.binding? id with
    | none =>
        rw [binding] at typed
        cases typed
    | some e =>
        rw [binding] at typed
        rw [within id e binding]
        exact Expr.nameIn_of_within shorter typed

theorem interpretation_within (within : store.Within later) (n : Nat) :
    (store.interpretation n).Within (later.interpretation n) := by
  induction n with
  | zero => exact interpretation_zero_within _
  | succ n ih => exact interpretation_succ_within within ih

theorem interpretation_within_of_le {n m : Nat} (le : n ≤ m) :
    (store.interpretation n).Within (store.interpretation m) := by
  induction n generalizing m with
  | zero => exact interpretation_zero_within _
  | succ n ih =>
      obtain ⟨m, rfl⟩ : ∃ k, m = k + 1 := ⟨m - 1, by omega⟩
      exact interpretation_succ_within (.refl store) (ih (by omega))

/-! The way is long enough. -/

theorem interpretation_type_eq_ok {n : Nat} {id : PlaceholderId} {name : String} {t : ExprType}
    (typed : (store.interpretation n).type id name = .ok t) :
    (store.binding? id).isSome ∧ ∀ other, (store.interpretation n).type id other = .ok t := by
  cases n with
  | zero =>
      -- Whatever is within every interpretation has no types.
      have impossible := (interpretation_zero_within
        ⟨fun _ => none, fun _ _ => .error .unending⟩).type id name t typed
      cases impossible
  | succ n =>
      simp only [interpretation, resolve] at typed ⊢
      cases binding : store.binding? id with
      | none =>
          rw [binding] at typed
          cases typed
      | some e =>
          rw [binding] at typed
          exact ⟨rfl, fun _ => typed⟩

/-- The placeholders that have a type along so many bindings. A name is needed only for the
message of an error. -/
def typed (store : Store) (n : Nat) : Finset PlaceholderId :=
  (store.bindings.map Prod.fst).toFinset.filter fun id =>
    ((store.interpretation n).type id "").isOk

theorem mem_typed {n : Nat} {id : PlaceholderId} :
    id ∈ store.typed n ↔ ∃ t, (store.interpretation n).type id "" = .ok t := by
  rw [typed, Finset.mem_filter]
  constructor
  · rintro ⟨_, ok⟩
    cases typed : (store.interpretation n).type id "" with
    | error e =>
        rw [typed] at ok
        cases ok
    | ok t => exact ⟨t, rfl⟩
  · rintro ⟨t, typed⟩
    obtain ⟨e, binding⟩ := Option.isSome_iff_exists.mp (interpretation_type_eq_ok typed).1
    obtain ⟨before, after, listed, _⟩ := List.lookup_eq_some_iff.mp binding
    refine ⟨?_, ?_⟩
    · simp [listed]
    · rw [typed]
      rfl

theorem typed_mono : Monotone store.typed := by
  intro n m le id listed
  obtain ⟨t, typed⟩ := mem_typed.mp listed
  exact mem_typed.mpr ⟨t, (interpretation_within_of_le le).type id "" t typed⟩

theorem within_of_typed_subset {n m : Nat} (le : n ≤ m) (noMore : store.typed m ⊆ store.typed n) :
    (store.interpretation m).Within (store.interpretation n) := by
  have longer : (store.interpretation n).Within (store.interpretation m) :=
    interpretation_within_of_le le
  have typedBefore : ∀ id name t, (store.interpretation m).type id name = .ok t →
      (store.interpretation n).type id name = .ok t := by
    intro id name t typed
    have listed := mem_typed.mpr ⟨t, (interpretation_type_eq_ok typed).2 ""⟩
    obtain ⟨t', before⟩ := mem_typed.mp (noMore listed)
    have before := (interpretation_type_eq_ok before).2 name
    rwa [Except.ok.inj (typed.symm.trans (longer.type id name t' before))]
  refine ⟨typedBefore, ?_⟩
  intro id name t typed
  exact (longer.name id name t (typedBefore id name t typed)).symm

theorem card_typed_le (n : Nat) : (store.typed n).card ≤ store.depth := by
  calc (store.typed n).card
      ≤ (store.bindings.map Prod.fst).toFinset.card := Finset.card_filter_le _ _
    _ ≤ (store.bindings.map Prod.fst).length := List.toFinset_card_le _
    _ = store.depth := List.length_map _

theorem interpretation_within_meaning (n : Nat) :
    (store.interpretation n).Within store.meaning := by
  rcases Nat.le_total n store.depth with le | le
  · exact interpretation_within_of_le le
  · -- A step that finds no further type is followed by none that does, and there are only as many
    -- types to find as there are bindings.
    have stops : ∀ m, (store.typed m).card = (store.typed (m + 1)).card →
        (store.typed (m + 1)).card = (store.typed (m + 2)).card := by
      intro m same
      have noMore := Finset.eq_of_subset_of_card_le (typed_mono m.le_succ) same.ge
      have back := interpretation_succ_within (.refl store)
        (within_of_typed_subset m.le_succ noMore.ge)
      have noMore : store.typed (m + 2) ⊆ store.typed (m + 1) := by
        intro id listed
        obtain ⟨t, typed⟩ := mem_typed.mp listed
        exact mem_typed.mpr ⟨t, back.type id "" t typed⟩
      exact le_antisymm (Finset.card_le_card (typed_mono (m + 1).le_succ))
        (Finset.card_le_card noMore)
    have grows : Monotone fun m => (store.typed m).card :=
      fun _ _ le => Finset.card_le_card (typed_mono le)
    have same := Nat.stabilises_of_monotone grows card_typed_le stops le
    exact within_of_typed_subset le
      (Finset.eq_of_subset_of_card_le (typed_mono le) same.le).ge

theorem Within.meaning (within : store.Within later) : store.meaning.Within later.meaning :=
  (interpretation_within within store.depth).trans (interpretation_within_meaning store.depth)

end Store

end SqlQuery
