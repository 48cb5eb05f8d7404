import SqlQuery.Path

/-!
Paths in dotted form. Main statement: the texts that can be read as a path are those with pieces
between single dots, and there reading and writing undo each other.
-/

theorem List.not_mem_of_mem_splitOn {α : Type u} [BEq α] [LawfulBEq α] {a : α} {xs piece : List α}
    (listed : piece ∈ xs.splitOn a) : a ∉ piece := by
  induction xs generalizing piece with
  | nil =>
      rw [List.splitOn_nil, List.mem_singleton] at listed
      rw [listed]
      exact List.not_mem_nil
  | cons x xs ih =>
      rw [List.splitOn_cons_eq_if_modifyHead] at listed
      split at listed
      · rcases List.mem_cons.mp listed with rfl | later
        · exact List.not_mem_nil
        · exact ih later
      · next other =>
          cases pieces : xs.splitOn a with
          | nil => exact absurd pieces (List.splitOn_ne_nil a xs)
          | cons first rest =>
              rw [pieces] at ih
              rw [pieces, List.modifyHead_cons] at listed
              rcases List.mem_cons.mp listed with rfl | later
              · -- the first piece has got one more element, which is not the separator
                intro within
                rcases List.mem_cons.mp within with rfl | within
                · exact other BEq.rfl
                · exact ih List.mem_cons_self within
              · exact ih (List.mem_cons_of_mem first later)

namespace SqlQuery.Path

/-- What can stand between dots. -/
def IsPiece (piece : String) : Prop :=
  piece ≠ "" ∧ '.' ∉ piece.toList

/-- At least one piece, and a dot between each piece and the next. -/
inductive Dotted : List String → String → Prop
  | last {piece : String} : IsPiece piece → Dotted [piece] piece
  | cons {piece text : String} {pieces : List String} : IsPiece piece → Dotted pieces text →
      Dotted (piece :: pieces) (piece ++ "." ++ text)

variable {dotted : String} {pieces : List String} {path : Path}

/-! Pieces and their text. -/

theorem Dotted.ne_nil (written : Dotted pieces dotted) : pieces ≠ [] := by
  cases written with
  | last _ => exact List.cons_ne_nil _ _
  | cons _ _ => exact List.cons_ne_nil _ _

theorem Dotted.isPiece (written : Dotted pieces dotted) : ∀ piece ∈ pieces, IsPiece piece := by
  induction written with
  | last isPiece => exact List.forall_mem_singleton.mpr isPiece
  | cons isPiece _ ih => exact List.forall_mem_cons.mpr ⟨isPiece, ih⟩

theorem Dotted.intercalate_eq (written : Dotted pieces dotted) :
    ".".intercalate pieces = dotted := by
  induction written with
  | last _ => exact String.intercalate_singleton
  | @cons piece text pieces _ rest ih =>
      cases pieces with
      | nil => exact absurd rfl rest.ne_nil
      | cons next pieces => rw [String.intercalate_cons_cons, ih]

theorem dotted_intercalate (some : pieces ≠ []) (isPiece : ∀ piece ∈ pieces, IsPiece piece) :
    Dotted pieces (".".intercalate pieces) := by
  induction pieces with
  | nil => exact absurd rfl some
  | cons piece pieces ih =>
      obtain ⟨here, later⟩ := List.forall_mem_cons.mp isPiece
      cases pieces with
      | nil =>
          rw [String.intercalate_singleton]
          exact .last here
      | cons next pieces =>
          rw [String.intercalate_cons_cons]
          exact .cons here (ih (List.cons_ne_nil _ _) later)

/-! Splitting a text at its dots. -/

theorem intercalate_split (dotted : String) :
    ".".intercalate ((dotted.toList.splitOn '.').map String.ofList) = dotted := by
  have dot : ".".toList = ['.'] := rfl
  rw [← String.toList_inj, String.toList_intercalate, List.map_map, dot]
  have same : String.toList ∘ String.ofList = id := by
    funext piece
    exact String.toList_ofList
  rw [same, List.map_id, List.intercalate_splitOn]

theorem Dotted.split_eq (written : Dotted pieces dotted) :
    (dotted.toList.splitOn '.').map String.ofList = pieces := by
  induction written with
  | last isPiece =>
      rw [List.splitOn_eq_singleton isPiece.2, List.map_singleton, String.ofList_toList]
  | @cons piece text pieces isPiece _ ih =>
      have first : (piece ++ "." ++ text).toList = piece.toList ++ '.' :: text.toList := by
        rw [String.toList_append, String.toList_append, List.append_assoc]
        rfl
      rw [first, List.splitOn_append_cons_self_of_not_mem isPiece.2, List.map_cons,
        String.ofList_toList, ih]

/-! Reading a path. -/

theorem ofSegments_eq_ok :
    ofSegments pieces = .ok path ↔ path.segments = pieces := by
  rw [ofSegments]
  split
  · next holds =>
      constructor
      · intro same
        cases same
        rfl
      · intro same
        cases same
        rfl
  · next fails =>
      constructor
      · intro same
        cases same
      · intro same
        cases same
        exact absurd ⟨path.segments_ne_nil, path.ne_empty_of_mem⟩ fails

theorem ofSegments_eq_error {error : Error} (failed : ofSegments pieces = .error error) :
    error = .emptyTablePath := by
  rw [ofSegments] at failed
  split at failed
  · cases failed
  · cases failed
    rfl

theorem parse_eq_ok_iff : parse dotted = .ok path ↔ Dotted path.segments dotted := by
  rw [parse, ofSegments_eq_ok]
  constructor
  · intro split
    have written := dotted_intercalate path.segments_ne_nil ?_
    · rwa [split, intercalate_split, ← split] at written
    · intro piece listed
      refine ⟨path.ne_empty_of_mem piece listed, ?_⟩
      rw [split] at listed
      obtain ⟨letters, cut, rfl⟩ := List.mem_map.mp listed
      rw [String.toList_ofList]
      exact List.not_mem_of_mem_splitOn cut
  · intro written
    exact written.split_eq.symm

theorem exists_parse_of_dotted (written : Dotted pieces dotted) :
    ∃ path, parse dotted = .ok path := by
  have nonempty : ∀ piece ∈ pieces, piece ≠ "" := fun piece listed =>
    (written.isPiece piece listed).1
  exact ⟨⟨pieces, written.ne_nil, nonempty⟩, parse_eq_ok_iff.mpr written⟩

/-- A text is read as a path exactly if it consists of pieces with single dots between them, and any
other text is refused. The path is written as the text it was read from, and a path whose names have
no dots is read from the text it is written as. -/
theorem parse_text_inverse :
    (∀ dotted, (∃ path, parse dotted = .ok path) ↔ ∃ pieces, Dotted pieces dotted) ∧
    (∀ dotted, (¬ ∃ pieces, Dotted pieces dotted) → parse dotted = .error .emptyTablePath) ∧
    (∀ dotted path, parse dotted = .ok path → path.text = dotted ∧ Dotted path.segments dotted) ∧
    ∀ path : Path, (∀ segment ∈ path.segments, '.' ∉ segment.toList) →
      parse path.text = .ok path := by
  have accepted : ∀ dotted, (∃ path, parse dotted = .ok path) ↔ ∃ pieces, Dotted pieces dotted := by
    intro dotted
    constructor
    · intro read
      obtain ⟨path, read⟩ := read
      exact ⟨path.segments, parse_eq_ok_iff.mp read⟩
    · intro written
      obtain ⟨pieces, written⟩ := written
      exact exists_parse_of_dotted written
  refine ⟨accepted, ?_, ?_, ?_⟩
  · intro dotted other
    cases outcome : parse dotted with
    | ok path => exact absurd ((accepted dotted).mp ⟨path, outcome⟩) other
    | error error => rw [ofSegments_eq_error outcome]
  · intro dotted path read
    have written := parse_eq_ok_iff.mp read
    exact ⟨written.intercalate_eq, written⟩
  · intro path dotFree
    have isPiece : ∀ segment ∈ path.segments, IsPiece segment := fun segment listed =>
      ⟨path.ne_empty_of_mem segment listed, dotFree segment listed⟩
    exact parse_eq_ok_iff.mpr (dotted_intercalate path.segments_ne_nil isPiece)

/-- Users of the main schema, and a text with nothing after its dot. -/
theorem parse_text_inverse_of_users :
    (∃ path, parse "main.users" = .ok path ∧ path.text = "main.users" ∧
      (∀ segment ∈ path.segments, '.' ∉ segment.toList) ∧ parse path.text = .ok path) ∧
    (¬ ∃ pieces, Dotted pieces "main.") ∧ parse "main." = .error .emptyTablePath := by
  obtain ⟨accepted, refused, written, read⟩ := parse_text_inverse
  have dotted : Dotted ["main", "users"] "main.users" :=
    .cons ⟨by decide, by decide⟩ (.last ⟨by decide, by decide⟩)
  obtain ⟨path, given⟩ := (accepted "main.users").mpr ⟨_, dotted⟩
  obtain ⟨text, pieces⟩ := written "main.users" path given
  have dotFree : ∀ segment ∈ path.segments, '.' ∉ segment.toList := fun segment listed =>
    (pieces.isPiece segment listed).2
  have unreadable : ¬ ∃ pieces, Dotted pieces "main." := by
    rw [← accepted "main."]
    intro given
    obtain ⟨path, given⟩ := given
    have failed : parse "main." = .error .emptyTablePath := rfl
    cases failed.symm.trans given
  exact ⟨⟨path, given, text, dotFree, read path dotFree⟩, unreadable, refused "main." unreadable⟩

end SqlQuery.Path
