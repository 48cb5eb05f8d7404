import Mathlib.Data.List.Forall2
import SqlQuery.Proofs.Query.Names
import SqlQuery.Proofs.Text.Capitals

/-!
Schemas as ordered maps. Main statement: the schema that a list of insertions makes is the one whose
columns stand for the different names among them, in the order in which the names came up, each
spelled as in the first insertion of the name and typed as in the last.
-/

namespace SqlQuery

namespace CaseMode

/-- What a mode takes for one name: the same text, or texts that differ in the case of ASCII letters
only. -/
def Alike : CaseMode → String → String → Prop
  | sensitive, a, b => a = b
  | insensitive, a, b =>
      List.Forall₂ (fun c d => c = d ∨ IsCapitalOf c d ∨ IsCapitalOf d c) a.toList b.toList

variable {mode : CaseMode} {a b : String}

theorem alike_iff : mode.Alike a b ↔ mode.fold a = mode.fold b := by
  cases mode with
  | sensitive => exact String.toList_inj.symm
  | insensitive =>
      rw [fold, fold, ← List.forall₂_eq_eq_eq, List.forall₂_map_left_iff,
        List.forall₂_map_right_iff]
      simp only [toLower_eq_iff]
      rfl

theorem same_iff_alike : mode.same a b = true ↔ mode.Alike a b := by
  rw [same_iff, alike_iff]

theorem alike_equivalence (mode : CaseMode) : Equivalence mode.Alike where
  refl _ := alike_iff.mpr rfl
  symm same := alike_iff.mpr (alike_iff.mp same).symm
  trans first second := alike_iff.mpr ((alike_iff.mp first).trans (alike_iff.mp second))

/-! Insertions of a name. -/

/-- The first insertion of a name. -/
def First (mode : CaseMode) (insertions : List (String × SemanticType)) (name : String)
    (insertion : String × SemanticType) : Prop :=
  ∃ earlier later, insertions = earlier ++ insertion :: later ∧ mode.Alike insertion.1 name ∧
    ∀ other ∈ earlier, ¬ mode.Alike other.1 name

/-- The last insertion of a name. -/
def Last (mode : CaseMode) (insertions : List (String × SemanticType)) (name : String)
    (insertion : String × SemanticType) : Prop :=
  ∃ earlier later, insertions = earlier ++ insertion :: later ∧ mode.Alike insertion.1 name ∧
    ∀ other ∈ later, ¬ mode.Alike other.1 name

/-- After some of the insertions the one name has been inserted, and the other has not. -/
def Precedes (mode : CaseMode) (insertions : List (String × SemanticType)) (a b : String) : Prop :=
  ∃ earlier later, insertions = earlier ++ later ∧
    (∃ insertion ∈ earlier, mode.Alike insertion.1 a) ∧
    ∀ insertion ∈ earlier, ¬ mode.Alike insertion.1 b

variable {insertions : List (String × SemanticType)} {insertion : String × SemanticType}

theorem first_iff :
    mode.First insertions a insertion ↔
      insertions.find? (fun other => mode.same other.1 a) = some insertion := by
  rw [List.find?_eq_some_iff_append, First]
  simp only [Bool.not_eq_true', ← Bool.not_eq_true, same_iff_alike]
  constructor
  · intro first
    obtain ⟨earlier, later, split, alike, none⟩ := first
    exact ⟨alike, earlier, later, split, none⟩
  · intro found
    obtain ⟨alike, earlier, later, split, none⟩ := found
    exact ⟨earlier, later, split, alike, none⟩

theorem last_iff_first :
    mode.Last insertions a insertion ↔ mode.First insertions.reverse a insertion := by
  constructor
  · intro last
    obtain ⟨earlier, later, rfl, alike, none⟩ := last
    refine ⟨later.reverse, earlier.reverse, by simp, alike, ?_⟩
    simpa using none
  · intro first
    obtain ⟨later, earlier, split, alike, none⟩ := first
    refine ⟨earlier.reverse, later.reverse, ?_, alike, by simpa using none⟩
    rw [List.reverse_eq_iff] at split
    rw [split, List.reverse_append, List.reverse_cons, List.append_assoc]
    rfl

theorem last_iff :
    mode.Last insertions a insertion ↔
      insertions.reverse.find? (fun other => mode.same other.1 a) = some insertion := by
  rw [last_iff_first, first_iff]

theorem Precedes.asymm (before : mode.Precedes insertions a b)
    (after : mode.Precedes insertions b a) : False := by
  obtain ⟨_, _, rfl, ⟨first, inFirst, isFirst⟩, noSecond⟩ := before
  obtain ⟨_, _, same, ⟨second, inSecond, isSecond⟩, noFirst⟩ := after
  -- of the two moments one comes before the other
  rcases List.append_eq_append_iff.mp same with ⟨more, rfl, -⟩ | ⟨more, rfl, -⟩
  · exact noFirst first (List.mem_append_left more inFirst) isFirst
  · exact noSecond second (List.mem_append_left more inSecond) isSecond

theorem Precedes.append (before : mode.Precedes insertions a b)
    (more : List (String × SemanticType)) : mode.Precedes (insertions ++ more) a b := by
  obtain ⟨earlier, later, rfl, inserted, none⟩ := before
  exact ⟨earlier, later ++ more, List.append_assoc _ _ _, inserted, none⟩

end CaseMode

namespace Schema

/-- A schema has the columns that insertions ask for: one for each name among them, in the order of
the first insertions, with the spelling of the first and the type of the last. -/
structure Collects (schema : Schema) (insertions : List (String × SemanticType)) : Prop where
  distinct : schema.names.Pairwise fun a b => ¬ schema.mode.Alike a b
  inOrder : schema.names.Pairwise (schema.mode.Precedes insertions)
  column_iff : ∀ key type, (key, type) ∈ schema.columns ↔
    (∃ old, schema.mode.First insertions key (key, old)) ∧
      ∃ other, schema.mode.Last insertions key (other, type)
  get?_iff : ∀ name type, schema.get? name = some type ↔
    ∃ key, schema.mode.Last insertions name (key, type)
  getKey?_iff : ∀ name key, schema.getKey? name = some key ↔
    ∃ type, schema.mode.First insertions name (key, type)
  contains_iff : ∀ name, schema.contains name = true ↔
    ∃ insertion ∈ insertions, schema.mode.Alike insertion.1 name

variable {schema other : Schema} {insertions : List (String × SemanticType)} {name key : String}
  {type : SemanticType}

/-! One insertion. -/

theorem find?_insertInto (mode : CaseMode) (name : String) (type : SemanticType) (key : String)
    (columns : List (String × SemanticType)) :
    (insertInto mode name type columns).find? (fun column => mode.same column.1 key) =
      if mode.same name key then
        some (((columns.find? fun column => mode.same column.1 key).map Prod.fst).getD name, type)
      else
        columns.find? fun column => mode.same column.1 key := by
  induction columns with
  | nil =>
      rw [insertInto, List.find?_singleton]
      rfl
  | cons column rest ih =>
      obtain ⟨first, old⟩ := column
      rw [insertInto]
      split
      · next same =>
          -- the name and the column agree on every key
          have agree : mode.same first key = mode.same name key := by
            rw [Bool.eq_iff_iff, CaseMode.same_iff, CaseMode.same_iff, CaseMode.same_iff.mp same]
          simp only [List.find?_cons, agree]
          cases mode.same name key with
          | true => rfl
          | false => rfl
      · next differ =>
          cases here : mode.same first key with
          | false => simp only [List.find?_cons, here, ih]
          | true =>
              have other : mode.same name key = false := by
                rw [Bool.eq_false_iff]
                intro also
                have first := CaseMode.same_iff.mp here
                have second := CaseMode.same_iff.mp also
                exact differ (CaseMode.same_iff.mpr (first.trans second.symm))
              simp only [List.find?_cons, here, other]
              rfl

theorem find?_insert (schema : Schema) (name : String) (type : SemanticType) (key : String) :
    (schema.insert name type).find? key =
      if schema.mode.same name key then some ((schema.getKey? key).getD name, type)
      else schema.find? key :=
  find?_insertInto schema.mode name type key schema.columns

theorem get?_insert (schema : Schema) (name : String) (type : SemanticType) (key : String) :
    (schema.insert name type).get? key =
      if schema.mode.same name key then some type else schema.get? key := by
  rw [get?, find?_insert]
  split
  · rfl
  · rfl

theorem getKey?_insert (schema : Schema) (name : String) (type : SemanticType) (key : String) :
    (schema.insert name type).getKey? key =
      (schema.getKey? key).or (if schema.mode.same name key then some name else none) := by
  rw [getKey?, find?_insert]
  split
  · cases schema.getKey? key with
    | none => rfl
    | some known => rfl
  · rw [Option.or_none]
    rfl

/-! Lookups of a schema whose names are distinct. -/

theorem distinct_iff :
    schema.names.Pairwise (fun a b => ¬ schema.mode.Alike a b) ↔ schema.folded.Nodup := by
  simp only [folded, List.Nodup, List.pairwise_map, CaseMode.alike_iff, ne_eq]

theorem mem_columns_iff (distinct : schema.names.Pairwise fun a b => ¬ schema.mode.Alike a b) :
    (key, type) ∈ schema.columns ↔
      schema.getKey? key = some key ∧ schema.get? key = some type := by
  constructor
  · intro listed
    obtain ⟨earlier, later, split⟩ := List.append_of_mem listed
    have first : schema.mode.First schema.columns key (key, type) := by
      refine ⟨earlier, later, split, schema.mode.alike_equivalence.refl key, ?_⟩
      intro column before
      rw [names, split, List.pairwise_map, List.pairwise_append] at distinct
      exact distinct.2.2 column before (key, type) List.mem_cons_self
    have found : schema.find? key = some (key, type) := CaseMode.first_iff.mp first
    rw [getKey?, get?, found]
    exact ⟨rfl, rfl⟩
  · intro known
    obtain ⟨column, found, spelled⟩ := Option.map_eq_some_iff.mp known.1
    have typed := known.2
    rw [get?, found] at typed
    cases spelled
    cases typed
    exact List.mem_of_find?_eq_some found

namespace Collects

/-- The lookups of all names say what the columns are. -/
theorem of_lookups (distinct : schema.names.Pairwise fun a b => ¬ schema.mode.Alike a b)
    (inOrder : schema.names.Pairwise (schema.mode.Precedes insertions))
    (spelled : ∀ name, schema.getKey? name =
      (insertions.find? fun insertion => schema.mode.same insertion.1 name).map Prod.fst)
    (typed : ∀ name, schema.get? name =
      (insertions.reverse.find? fun insertion => schema.mode.same insertion.1 name).map Prod.snd) :
    schema.Collects insertions := by
  have getKey?_iff : ∀ name key, schema.getKey? name = some key ↔
      ∃ type, schema.mode.First insertions name (key, type) := by
    intro name key
    simp only [spelled, Option.map_eq_some_iff, CaseMode.first_iff, Prod.exists, exists_and_right,
      exists_eq_right]
  have get?_iff : ∀ name type, schema.get? name = some type ↔
      ∃ key, schema.mode.Last insertions name (key, type) := by
    intro name type
    simp only [typed, Option.map_eq_some_iff, CaseMode.last_iff, Prod.exists, exists_eq_right]
  refine ⟨distinct, inOrder, ?_, get?_iff, getKey?_iff, ?_⟩
  · intro key type
    rw [mem_columns_iff distinct, getKey?_iff, get?_iff]
  · intro name
    have known : schema.contains name = (schema.getKey? name).isSome := by
      rw [contains, getKey?, Option.isSome_map]
    rw [known, spelled, Option.isSome_map, List.find?_isSome]
    simp only [CaseMode.same_iff_alike]

theorem getKey?_eq (collected : schema.Collects insertions) (name : String) :
    schema.getKey? name =
      (insertions.find? fun insertion => schema.mode.same insertion.1 name).map Prod.fst := by
  ext key
  simp only [collected.getKey?_iff, CaseMode.first_iff, Option.map_eq_some_iff, Prod.exists,
    exists_and_right, exists_eq_right]

theorem get?_eq (collected : schema.Collects insertions) (name : String) :
    schema.get? name =
      (insertions.reverse.find? fun insertion => schema.mode.same insertion.1 name).map
        Prod.snd := by
  ext type
  simp only [collected.get?_iff, CaseMode.last_iff, Option.map_eq_some_iff, Prod.exists,
    exists_eq_right]

theorem inserted_of_mem (collected : schema.Collects insertions) (listed : name ∈ schema.names) :
    ∃ insertion ∈ insertions, schema.mode.Alike insertion.1 name :=
  (collected.contains_iff name).mp (Schema.contains_iff.mpr (List.mem_map_of_mem listed))

/-! A new name comes after all names there are, and any other name keeps its place. -/

theorem inOrder_insert (collected : schema.Collects insertions) (name : String)
    (type : SemanticType) :
    (schema.insert name type).names.Pairwise
      (schema.mode.Precedes (insertions ++ [(name, type)])) := by
  have kept : schema.names.Pairwise (schema.mode.Precedes (insertions ++ [(name, type)])) :=
    collected.inOrder.imp fun before => before.append _
  rw [names_insert]
  split
  · exact kept
  · next new =>
      rw [List.pairwise_append]
      refine ⟨kept, List.pairwise_singleton _ _, ?_⟩
      intro a listed b last
      cases List.mem_singleton.mp last
      refine ⟨insertions, [(name, type)], rfl, collected.inserted_of_mem listed, ?_⟩
      intro insertion inserted alike
      exact new ((collected.contains_iff name).mpr ⟨insertion, inserted, alike⟩)

theorem empty (mode : CaseMode) : Collects { mode } [] :=
  of_lookups .nil .nil (fun _ => rfl) (fun _ => rfl)

theorem insert (collected : schema.Collects insertions) (name : String) (type : SemanticType) :
    (schema.insert name type).Collects (insertions ++ [(name, type)]) := by
  refine of_lookups ?_ (collected.inOrder_insert name type) ?_ ?_
  · exact distinct_iff.mpr (nodup_folded_insert (distinct_iff.mp collected.distinct))
  · intro key
    rw [getKey?_insert, collected.getKey?_eq, List.find?_append, Option.map_or,
      List.find?_singleton, apply_ite (Option.map Prod.fst)]
    rfl
  · intro key
    have mode : (schema.insert name type).mode = schema.mode := rfl
    rw [get?_insert, collected.get?_eq, List.reverse_append, List.reverse_singleton,
      List.singleton_append, mode]
    cases same : schema.mode.same name key with
    | true =>
        simp only [List.find?_cons, same]
        rfl
    | false =>
        simp only [List.find?_cons, same]
        rfl

theorem insertMany (collected : schema.Collects insertions)
    (more : List (String × SemanticType)) :
    (schema.insertMany more).Collects (insertions ++ more) := by
  induction more generalizing schema insertions with
  | nil => rwa [List.append_nil]
  | cons insertion rest ih =>
      have next := ih (collected.insert insertion.1 insertion.2)
      rwa [List.append_assoc] at next

/-- The insertions and the mode leave no choice. -/
theorem unique (collected : schema.Collects insertions) (also : other.Collects insertions)
    (mode : schema.mode = other.mode) : schema = other := by
  obtain ⟨mode, columns⟩ := schema
  obtain ⟨_, others⟩ := other
  cases mode
  have inOrder := List.pairwise_map.mp collected.inOrder
  have alsoInOrder := List.pairwise_map.mp also.inOrder
  have ne_of_precedes : ∀ {a b : String × SemanticType},
      mode.Precedes insertions a.1 b.1 → a ≠ b := by
    intro a b before same
    cases same
    exact before.asymm before
  have listed : columns.Perm others := by
    rw [List.perm_ext_iff_of_nodup (inOrder.imp ne_of_precedes) (alsoInOrder.imp ne_of_precedes)]
    intro column
    exact (collected.column_iff column.1 column.2).trans (also.column_iff column.1 column.2).symm
  have same : columns = others :=
    listed.eq_of_pairwise (fun _ _ _ _ before after => (before.asymm after).elim) inOrder
      alsoInOrder
  rw [same]

end Collects

theorem mode_insertMany (schema : Schema) (insertions : List (String × SemanticType)) :
    (schema.insertMany insertions).mode = schema.mode := by
  induction insertions generalizing schema with
  | nil => rfl
  | cons insertion rest ih => exact ih (schema.insert insertion.1 insertion.2)

/-- A list of insertions makes the schema that has their columns, and no other one. -/
theorem insertMany_eq_iff (mode : CaseMode) (insertions : List (String × SemanticType))
    (schema : Schema) :
    insertMany { mode } insertions = schema ↔ schema.mode = mode ∧ schema.Collects insertions := by
  have made : (insertMany { mode } insertions).Collects insertions :=
    (Collects.empty mode).insertMany insertions
  constructor
  · intro same
    cases same
    exact ⟨mode_insertMany { mode } insertions, made⟩
  · intro known
    refine made.unique known.2 ?_
    rw [mode_insertMany, known.1]

/-- A name that comes up again keeps its place and its first spelling. -/
example :
    (insertMany { mode := .insensitive }
      [("Id", .integer), ("Note", .text), ("ID", .boolean)]).columns =
      [("Id", .boolean), ("Note", .text)] := by
  decide

end Schema

end SqlQuery
