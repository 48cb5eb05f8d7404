import Mathlib.Data.List.TakeWhile
import SqlQuery.Proofs.SetOperation.Reader

/-!
What is read from operands with operators between them and no parentheses around any.
-/

namespace SqlQuery

def SetTree.text : SetTree String → String
  | leaf text => text
  | node operator left right => left.text ++ " " ++ operator.keyword ++ " " ++ right.text

namespace Reader

/-! SELECTs. -/

/-- The items of one SELECT, without an operator at the top level. -/
structure IsSelect (items : List Item) : Prop where
  starts : items.head?.any (·.isKeyword "SELECT")
  single : ∀ i ∈ items, i.setOperator? = none

instance (items : List Item) : Decidable (IsSelect items) :=
  decidable_of_iff (items.head?.any (·.isKeyword "SELECT") ∧ ∀ i ∈ items, i.setOperator? = none)
    ⟨fun ⟨starts, single⟩ => ⟨starts, single⟩, fun ⟨starts, single⟩ => ⟨starts, single⟩⟩

/-- The clauses at the end that belong to a query as a whole. -/
def trailer (items : List Item) : List Item :=
  items.dropWhile (!·.isTrailer)

def selectQuery (items : List Item) : SetQuery :=
  (SetQuery.select (items.takeWhile (!·.isTrailer))).withClauses (trailer items)

theorem Item.isKeyword_unique {i : Item} {k l : String} (first : i.isKeyword k)
    (second : i.isKeyword l) : k = l := by
  cases i with
  | group _ => cases first
  | token t =>
      cases t with
      | word letters =>
          simp only [Item.isKeyword, beq_iff_eq] at first second
          exact String.toList_injective (first.symm.trans second)
      | quoted _ _ => cases first
      | symbol _ => cases first

theorem IsSelect.exists_cons {items : List Item} (select : IsSelect items) :
    ∃ first rest, items = first :: rest ∧ first.isKeyword "SELECT" := by
  cases items with
  | nil => exact absurd select.starts Bool.false_ne_true
  | cons first rest => exact ⟨first, rest, rfl, select.starts⟩

theorem pieces_eq (items : List Item) : pieces items = items.map fun i => (i, i.query) := by
  induction items with
  | nil => rfl
  | cons i rest ih => rw [pieces, ih, List.map_cons]

theorem pieces_append (first second : List Item) :
    pieces (first ++ second) = pieces first ++ pieces second := by
  simp only [pieces_eq, List.map_append]

theorem map_fst_pieces (items : List Item) : (pieces items).map Prod.fst = items := by
  simp only [pieces_eq, List.map_map, Function.comp_def, List.map_id']

theorem operandQuery_select {first : Item} (select : first.isKeyword "SELECT") (rest : List Item) :
    operandQuery (pieces (first :: rest)) = some (.select (first :: rest)) := by
  cases first with
  | group _ => cases select
  | token t =>
      rw [pieces, operandQuery, if_pos select, List.map_cons, map_fst_pieces]
      intro _ _ isGroup
      cases isGroup

theorem operands_append {first : List Piece} (single : ∀ p ∈ first, p.1.setOperator? = none)
    (rest : List Piece) :
    operands (first ++ rest) = ⟨first ++ (operands rest).first, (operands rest).others⟩ := by
  induction first with
  | nil => rfl
  | cons p first ih =>
      obtain ⟨head, tail⟩ := List.forall_mem_cons.mp single
      rw [List.cons_append, operands, head, ih tail]
      rfl

theorem setOperator?_pieces {items : List Item} (single : ∀ i ∈ items, i.setOperator? = none) :
    ∀ p ∈ pieces items, p.1.setOperator? = none := by
  intro p mem
  rw [pieces_eq] at mem
  obtain ⟨i, listed, rfl⟩ := List.mem_map.mp mem
  exact single i listed

/-! Operators. -/

def keywordItem (keyword : String) : Item :=
  .token (.word keyword.toList)

def operatorItems : SetOperator → List Item
  | .union => [keywordItem "UNION"]
  | .unionAll => [keywordItem "UNION", keywordItem "ALL"]
  | .except => [keywordItem "EXCEPT"]
  | .intersect => [keywordItem "INTERSECT"]

theorem items_keyword (operator : SetOperator) :
    items operator.keyword.toList = some (operatorItems operator) := by
  cases operator <;> rfl

theorem withAll_of_select {operator : SetOperator} {p : Piece} (select : p.1.isKeyword "SELECT")
    (rest : List Piece) : withAll operator (p :: rest) = (operator, p :: rest) := by
  rw [withAll, if_neg]
  rintro ⟨-, all⟩
  have same : "SELECT" = "ALL" := Item.isKeyword_unique select all
  exact absurd same (by decide)

theorem operands_keyword (operator : SetOperator) (rest : List Piece) :
    operands (pieces (operatorItems operator) ++ rest) =
      ⟨[], (match operator with
        | .unionAll => (.unionAll, (operands rest).first)
        | _ => withAll operator (operands rest).first) :: (operands rest).others⟩ := by
  cases operator <;> rfl

/-- After an operator and a SELECT, the operand is what comes before the next operator. -/
theorem operands_operator (operator : SetOperator) {read : List Item} (select : IsSelect read)
    (rest : List Piece) :
    operands (pieces (operatorItems operator) ++ (pieces read ++ rest)) =
      ⟨[], (operator, pieces read ++ (operands rest).first) :: (operands rest).others⟩ := by
  have noAll : withAll operator (pieces read ++ (operands rest).first) =
      (operator, pieces read ++ (operands rest).first) := by
    obtain ⟨first, others, rfl, keyword⟩ := select.exists_cons
    rw [pieces, List.cons_append, withAll_of_select keyword]
  rw [operands_keyword, operands_append (setOperator?_pieces select.single) rest]
  cases operator with
  | unionAll => rfl
  | union => rw [noAll]
  | except => rw [noAll]
  | intersect => rw [noAll]

/-! Operands with operators between them. -/

def followers (others : List (SetOperator × List Item)) : List Item :=
  others.flatMap fun (operator, read) => operatorItems operator ++ read

def chainItems (c : SetChain (List Item)) : List Item :=
  c.first ++ followers c.others

theorem operands_followers {others : List (SetOperator × List Item)}
    (selects : ∀ p ∈ others, IsSelect p.2) :
    operands (pieces (followers others)) =
      ⟨[], others.map fun (operator, read) => (operator, pieces read)⟩ := by
  induction others with
  | nil => rfl
  | cons head others ih =>
      obtain ⟨operator, read⟩ := head
      obtain ⟨select, selects⟩ := List.forall_mem_cons.mp selects
      rw [followers, List.flatMap_cons, List.append_assoc, pieces_append, pieces_append]
      rw [operands_operator operator select]
      change SetChain.mk [] ((operator, _ ++ (operands (pieces (followers others))).first) ::
        (operands (pieces (followers others))).others) = _
      rw [ih selects, List.append_nil]
      rfl

theorem operands_chainItems {c : SetChain (List Item)} (first : IsSelect c.first)
    (others : ∀ p ∈ c.others, IsSelect p.2) :
    operands (pieces (chainItems c)) = c.map pieces := by
  rw [chainItems, pieces_append, operands_append (setOperator?_pieces first.single),
    operands_followers others, List.append_nil]
  rfl

/-! Clauses at the end. -/

theorem takeWhile_pieces (items : List Item) :
    (pieces items).takeWhile (!·.1.isTrailer) = pieces (items.takeWhile (!·.isTrailer)) := by
  simp only [pieces_eq, List.takeWhile_map, Function.comp_def]

theorem dropWhile_pieces (items : List Item) :
    (pieces items).dropWhile (!·.1.isTrailer) = pieces (trailer items) := by
  simp only [pieces_eq, trailer, List.dropWhile_map, Function.comp_def]

theorem trailer_append {body clauses : List Item} (plain : ∀ i ∈ body, i.isTrailer = false)
    (trails : ∀ i ∈ clauses.head?, i.isTrailer) :
    (body ++ clauses).takeWhile (!·.isTrailer) = body ∧ trailer (body ++ clauses) = clauses := by
  have passes : ∀ i ∈ body, (!i.isTrailer) = true := by
    intro i mem
    rw [plain i mem]
    rfl
  rw [trailer, List.takeWhile_append_of_pos passes, List.dropWhile_append_of_pos passes]
  cases clauses with
  | nil => simp only [List.takeWhile_nil, List.append_nil, List.dropWhile_nil, and_self]
  | cons i rest =>
      simp only [List.takeWhile_cons, List.dropWhile_cons, trails i rfl, Bool.not_true,
        Bool.false_eq_true, if_false, List.append_nil, and_self]

theorem trailer_eq_nil {items : List Item} :
    trailer items = [] ↔ ∀ i ∈ items, i.isTrailer = false := by
  simp only [trailer, List.dropWhile_eq_nil_iff, Bool.not_eq_true']

/-- Clauses after SELECTs that have none of their own belong to their combination. -/
theorem pieceQuery_chainItems {c : SetChain (List Item)} {clauses : List Item}
    (first : IsSelect c.first) (others : ∀ p ∈ c.others, IsSelect p.2)
    (plain : ∀ i ∈ chainItems c, i.isTrailer = false)
    (trails : ∀ i ∈ clauses.head?, i.isTrailer) (single : ∀ i ∈ clauses, i.setOperator? = none) :
    pieceQuery (pieces (chainItems c ++ clauses)) =
      some ((combined (c.tree.map .select)).withClauses clauses) := by
  obtain ⟨body, rest⟩ := trailer_append plain trails
  have noOperator : (pieces clauses).any (·.1.setOperator?.isSome) = false := by
    rw [List.any_eq_false]
    intro p mem
    rw [setOperator?_pieces single p mem]
    exact Bool.false_ne_true
  have reads : ∀ read, IsSelect read → operandQuery (pieces read) = some (.select read) := by
    intro read select
    obtain ⟨first, rest, rfl, keyword⟩ := select.exists_cons
    exact operandQuery_select keyword rest
  have queries : (c.map pieces).mapM operandQuery = some (c.map SetQuery.select) :=
    SetChain.mapM_map (reads _ first) fun p mem => reads _ (others p mem)
  simp only [pieceQuery, takeWhile_pieces, dropWhile_pieces, body, rest, noOperator,
    operands_chainItems first others, queries, map_fst_pieces]
  rw [← SetChain.tree_map]
  rfl

theorem IsSelect.takeWhile {read : List Item} (select : IsSelect read) :
    IsSelect (read.takeWhile (!·.isTrailer)) := by
  refine ⟨?_, fun i mem => select.single i ((List.takeWhile_sublist _).subset mem)⟩
  obtain ⟨first, rest, rfl, keyword⟩ := select.exists_cons
  have plain : first.isTrailer = false := by
    rw [Item.isTrailer, List.any_eq_false]
    intro other listed isOther
    rw [← Item.isKeyword_unique keyword isOther] at listed
    revert listed
    decide
  simp only [List.takeWhile_cons, plain, Bool.not_false, if_true]
  exact keyword

theorem pieceQuery_select {read : List Item} (select : IsSelect read) :
    pieceQuery (pieces read) = some (selectQuery read) := by
  have whole : chainItems ⟨read.takeWhile (!·.isTrailer), []⟩ ++ trailer read = read := by
    rw [chainItems, followers, List.flatMap_nil, List.append_nil, trailer,
      List.takeWhile_append_dropWhile]
  have plain : ∀ i ∈ chainItems ⟨read.takeWhile (!·.isTrailer), []⟩, i.isTrailer = false := by
    intro i mem
    rw [chainItems, followers, List.flatMap_nil, List.append_nil] at mem
    simpa only [Bool.not_eq_true'] using List.mem_takeWhile_imp mem
  have trails : ∀ i ∈ (trailer read).head?, i.isTrailer := by
    intro i mem
    have stops := List.head?_dropWhile_not (!·.isTrailer) read
    rw [← trailer, mem] at stops
    simpa using stops
  have single : ∀ i ∈ trailer read, i.setOperator? = none :=
    fun i mem => select.single i ((List.dropWhile_sublist _).subset mem)
  have noOthers : ∀ p ∈ ([] : List (SetOperator × List Item)), IsSelect p.2 := by
    intro p mem
    cases mem
  have reads := pieceQuery_chainItems select.takeWhile noOthers plain trails single
  rw [whole] at reads
  exact reads

/-! Trees of SELECTs. -/

def ReadsSelect (text : String) (read : List Item) : Prop :=
  items text.toList = some read ∧ IsSelect read

theorem chainItems_leaf (read : List Item) : chainItems (SetTree.leaf read).chain = read := by
  rw [SetTree.chain, chainItems, followers, List.flatMap_nil, List.append_nil]

theorem chainItems_node (operator : SetOperator) (left right : SetTree (List Item)) :
    chainItems (SetTree.node operator left right).chain =
      chainItems left.chain ++ (operatorItems operator ++ chainItems right.chain) := by
  simp only [SetTree.chain, chainItems, followers, List.flatMap_append, List.flatMap_cons,
    List.append_assoc]

theorem items_text {texts : SetTree String} {reads : SetTree (List Item)}
    (selects : texts.Forall₂ ReadsSelect reads) :
    items texts.text.toList = some (chainItems reads.chain) := by
  induction selects with
  | leaf select =>
      rw [chainItems_leaf]
      exact select.1
  | @node operator left right leftReads rightReads _ _ ihLeft ihRight =>
      have between := items_append_blank (items_keyword operator) right.text.toList
      have whole := items_append_blank ihLeft (operator.keyword.toList ++ ' ' :: right.text.toList)
      rw [between, ihRight, Option.map_some, Option.map_some] at whole
      rw [chainItems_node, ← whole]
      simp only [SetTree.text, String.toList_append, List.append_assoc]
      rfl

theorem combined_select_injective {t u : SetTree (List Item)}
    (same : combined (t.map .select) = combined (u.map .select)) : t = u := by
  induction t generalizing u with
  | leaf read =>
      cases u with
      | leaf other =>
          cases same
          rfl
      | node _ _ _ => cases same
  | node operator left right ihLeft ihRight =>
      cases u with
      | leaf _ => cases same
      | node other left' right' =>
          simp only [SetTree.map, combined, SetQuery.combine.injEq] at same
          obtain ⟨rfl, leftSame, rightSame⟩ := same
          rw [ihLeft leftSame, ihRight rightSame]

theorem isSelect_chain {texts : SetTree String} {reads : SetTree (List Item)}
    (selects : texts.Forall₂ ReadsSelect reads) :
    IsSelect reads.chain.first ∧ ∀ p ∈ reads.chain.others, IsSelect p.2 := by
  induction selects with
  | leaf select =>
      refine ⟨select.2, ?_⟩
      intro p mem
      cases mem
  | node _ _ ihLeft ihRight =>
      refine ⟨ihLeft.1, ?_⟩
      intro p mem
      rcases List.mem_append.mp mem with inLeft | inRight
      · exact ihLeft.2 p inLeft
      · rcases List.mem_cons.mp inRight with rfl | inRight
        · exact ihRight.1
        · exact ihRight.2 p inRight

theorem isTrailer_operatorItems (operator : SetOperator) :
    ∀ i ∈ operatorItems operator, i.isTrailer = false := by
  cases operator <;> decide

theorem plain_chainItems_iff (t : SetTree (List Item)) :
    (∀ i ∈ chainItems t.chain, i.isTrailer = false) ↔ ∀ read ∈ t.leaves, trailer read = [] := by
  induction t with
  | leaf read =>
      simp only [chainItems_leaf, SetTree.leaves, List.forall_mem_singleton, trailer_eq_nil]
  | node operator left right ihLeft ihRight =>
      have keywords := iff_true_intro (isTrailer_operatorItems operator)
      simp only [chainItems_node, SetTree.leaves, List.forall_mem_append, ihLeft, ihRight, keywords,
        true_and]

theorem trailer_eq_nil_of_combine {read : List Item} {operator : SetOperator}
    {left right : SetQuery}
    (reads : pieceQuery (pieces read) = some (.combine operator left right)) :
    trailer read = [] := by
  simp only [pieceQuery, dropWhile_pieces, map_fst_pieces] at reads
  split at reads
  · cases reads
  · obtain ⟨chain, _, closed⟩ := Option.bind_eq_some_iff.mp reads
    cases clauses : trailer read with
    | nil => rfl
    | cons i rest =>
        rw [clauses] at closed
        cases closed

theorem selectQuery_of_plain {read : List Item} (plain : trailer read = []) :
    selectQuery read = .select read := by
  have whole : read.takeWhile (!·.isTrailer) = read := by
    rw [List.takeWhile_eq_self_iff]
    intro i mem
    rw [trailer_eq_nil.mp plain i mem]
    rfl
  rw [selectQuery, plain, whole]
  rfl

/-- Operands without parentheses are read as the tree that they are written for exactly if it is
grouped as they are read and, unless there is only one of them, none has clauses at its end. -/
theorem query_text_iff {texts : SetTree String} {reads : SetTree (List Item)}
    (selects : texts.Forall₂ ReadsSelect reads) :
    query texts.text = some (combined (reads.map selectQuery)) ↔
      texts.isGrouped ∧ (texts.isLeaf ∨ ∀ read ∈ reads.leaves, trailer read = []) := by
  have whole : query texts.text = pieceQuery (pieces (chainItems reads.chain)) := by
    rw [query, items_text selects, Option.bind_some]
  have untrailed : (∀ read ∈ reads.leaves, trailer read = []) →
      (query texts.text = some (combined (reads.map selectQuery)) ↔ texts.isGrouped) := by
    intro plain
    obtain ⟨first, others⟩ := isSelect_chain selects
    have combination := pieceQuery_chainItems first others ((plain_chainItems_iff reads).mpr plain)
      (fun i (mem : i ∈ ([] : List Item).head?) => nomatch mem) fun i mem => nomatch mem
    rw [List.append_nil] at combination
    rw [whole, combination,
      SetTree.map_congr fun read leaf => selectQuery_of_plain (plain read leaf),
      selects.isGrouped_eq, ← SetTree.tree_chain_iff, Option.some.injEq]
    exact ⟨combined_select_injective, fun same => by rw [same]; rfl⟩
  cases selects with
  | @leaf text read select =>
      simp only [SetTree.isGrouped, SetTree.isLeaf, true_or, and_self, iff_true]
      rw [whole, chainItems_leaf]
      exact pieceQuery_select select.2
  | node left right =>
      simp only [SetTree.isLeaf, Bool.false_eq_true, false_or]
      constructor
      · intro reads
        have plain := (plain_chainItems_iff _).mp
          (trailer_eq_nil.mp (trailer_eq_nil_of_combine (whole.symm.trans reads)))
        exact ⟨(untrailed plain).mp reads, plain⟩
      · rintro ⟨grouped, plain⟩
        exact (untrailed plain).mpr grouped

end Reader

end SqlQuery
