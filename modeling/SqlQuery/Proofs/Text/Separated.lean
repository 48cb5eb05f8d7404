import Mathlib.Data.List.Basic
import SqlQuery.Proofs.Text.Quoted

/-!
Items with a separator between them, and a reader for as many of them as there are.
-/

theorem List.intercalate_cons_eq_append_flatMap (separator first : List α) (rest : List (List α)) :
    separator.intercalate (first :: rest) = first ++ rest.flatMap (separator ++ ·) := by
  induction rest generalizing first with
  | nil => simp
  | cons second rest ih =>
      rw [List.intercalate_cons_cons, ih, List.flatMap_cons, List.append_assoc, List.append_assoc]

namespace SqlQuery.Text

/-- What may follow an item: nothing, a blank, a comma or a closing parenthesis. -/
def Ends (rest : List Char) : Prop :=
  ∀ c ∈ rest.head?, c = ' ' ∨ c = ',' ∨ c = ')'

theorem ends_nil : Ends [] := nofun

theorem ends_cons {c : Char} {rest : List Char} (ending : c = ' ' ∨ c = ',' ∨ c = ')') :
    Ends (c :: rest) := by
  intro d first
  cases first
  exact ending

theorem Ends.head_ne {rest : List Char} (ended : Ends rest) {c : Char}
    (other : c ≠ ' ' ∧ c ≠ ',' ∧ c ≠ ')') : rest.head? ≠ some c := by
  intro first
  rcases ended c first with same | same | same
  · exact other.1 same
  · exact other.2.1 same
  · exact other.2.2 same

/-- One item or more, as long as a comma follows. -/
def readItems (read : List Char → Option (α × List Char)) (input : List Char) :
    Option (List α × List Char) :=
  match read input with
  | none => none
  | some (first, rest) =>
      match rest.dropPrefix? ", ".toList with
      | none => some ([first], rest)
      | some more =>
          if more.length < input.length then
            (readItems read more).map (Prod.map (first :: ·) id)
          else
            none
termination_by input.length

variable {read : List Char → Option (α × List Char)} {write : α → List Char}
  {input rest more : List Char} {first : α}

theorem readItems_last (found : read input = some (first, rest))
    (last : rest.dropPrefix? ", ".toList = none) :
    readItems read input = some ([first], rest) := by
  rw [readItems, found]
  simp only [last]

theorem readItems_comma (found : read input = some (first, ", ".toList ++ more))
    (shorter : more.length < input.length) :
    readItems read input = (readItems read more).map (Prod.map (first :: ·) id) := by
  have comma : (", ".toList ++ more).dropPrefix? ", ".toList = some more :=
    List.dropPrefix?_append_of_beq more (by decide)
  rw [readItems, found]
  simp only [comma, if_pos shorter]

/-- A reader of single items reads all of them if each is found again in front of what may follow
it. -/
theorem readItems_intercalate (others : List α)
    (reads : ∀ a ∈ first :: others, ∀ rest, Ends rest → read (write a ++ rest) = some (a, rest))
    (closed : ∀ c ∈ rest.head?, c = ')') :
    readItems read (", ".toList.intercalate ((first :: others).map write) ++ rest) =
      some (first :: others, rest) := by
  have ended : Ends rest := fun c head => .inr (.inr (closed c head))
  induction others generalizing first with
  | nil =>
      have last : rest.dropPrefix? ", ".toList = none := by
        cases rest with
        | nil => rfl
        | cons c rest =>
            cases closed c rfl
            rfl
      have found := reads first List.mem_cons_self rest ended
      simp only [List.map_cons, List.map_nil, List.intercalate_singleton]
      exact readItems_last found last
  | cons second others ih =>
      obtain ⟨here, later⟩ := List.forall_mem_cons.mp reads
      let more := ", ".toList.intercalate ((second :: others).map write) ++ rest
      have text : ", ".toList.intercalate ((first :: second :: others).map write) ++ rest =
          write first ++ (", ".toList ++ more) := by
        simp only [List.map_cons, List.intercalate_cons_cons, List.append_assoc, more]
      have found := here (", ".toList ++ more) (ends_cons (.inr (.inl rfl)))
      have shorter : more.length < (write first ++ (", ".toList ++ more)).length := by
        simp only [List.length_append, show ", ".toList.length = 2 by decide]
        omega
      rw [text, readItems_comma found shorter, ih later]
      rfl

end SqlQuery.Text
