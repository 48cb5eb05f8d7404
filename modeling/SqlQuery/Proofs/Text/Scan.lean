import SqlQuery.Proofs.Text.Quoted

/-!
A text taken apart into its quotations and single characters. Two marks open a quotation: the one
around names, and the single quote around text.
-/

namespace SqlQuery.Text

inductive Token where
  | quoted (mark : Char) (text : List Char)
  | symbol (c : Char)
  deriving DecidableEq, Repr

def Token.spelling : Token → List Char
  | quoted mark text => mark :: (doubled mark text ++ [mark])
  | symbol c => [c]

/-- The tokens of a text in which all quotations end. -/
def tokens (mark : Char) (input : List Char) : Option (List Token) :=
  match input with
  | [] => some []
  | c :: rest =>
      if c = mark ∨ c = '\'' then
        match _read : upToMark c rest with
        | none => none
        | some (text, after) => (tokens mark after).map (.quoted c text :: ·)
      else
        (tokens mark rest).map (.symbol c :: ·)
termination_by input.length
decreasing_by
  · exact Nat.lt_succ_of_lt (length_lt_of_upToMark _read)
  · exact Nat.lt_succ_self _

variable {mark c : Char} {text before after rest input : List Char} {read later : List Token}

theorem tokens_quotation (isMark : c = mark ∨ c = '\'')
    (found : upToMark c rest = some (text, after)) :
    tokens mark (c :: rest) = (tokens mark after).map (.quoted c text :: ·) := by
  rw [tokens, if_pos isMark]
  split
  · rename_i missed
    rw [found] at missed
    cases missed
  · rename_i found'
    rw [found] at found'
    cases found'
    rfl

theorem tokens_symbol (noMark : ¬ (c = mark ∨ c = '\'')) :
    tokens mark (c :: rest) = (tokens mark rest).map (.symbol c :: ·) := by
  rw [tokens, if_neg noMark]

theorem spelling_tokens (reads : tokens mark input = some read) :
    read.flatMap Token.spelling = input := by
  fun_induction tokens mark input generalizing read with
  | case1 =>
      cases reads
      rfl
  | case2 => cases reads
  | case3 c rest isMark text after found ih =>
      obtain ⟨later, inner, rfl⟩ := Option.map_eq_some_iff.mp reads
      rw [List.flatMap_cons, ih inner, (eq_of_upToMark found).1]
      simp [Token.spelling]
  | case4 c rest noMark ih =>
      obtain ⟨later, inner, rfl⟩ := Option.map_eq_some_iff.mp reads
      rw [List.flatMap_cons, ih inner]
      rfl

theorem mem_getLast?_append {front : List Char} (last : c ∈ rest.getLast?) :
    c ∈ (front ++ rest).getLast? := by
  rw [List.getLast?_append, Option.mem_def.mp last]
  rfl

/-- A quotation goes on in what follows only if its own mark comes right after it. -/
theorem tokens_append (reads : tokens mark before = some read)
    (apart : ∀ c ∈ before.getLast?, c ∈ after.head? → ¬ (c = mark ∨ c = '\'')) :
    tokens mark (before ++ after) = (tokens mark after).map (read ++ ·) := by
  fun_induction tokens mark before generalizing read with
  | case1 =>
      cases reads
      simp
  | case2 => cases reads
  | case3 c rest isMark text middle found ih =>
      obtain ⟨later, inner, rfl⟩ := Option.map_eq_some_iff.mp reads
      obtain ⟨rfl, ended⟩ := eq_of_upToMark found
      have whole : c :: (doubled c text ++ c :: middle) =
          (c :: doubled c text ++ [c]) ++ middle := by
        simp
      rw [whole] at apart
      have stillEnded : (middle ++ after).head? ≠ some c := by
        cases middle with
        | nil =>
            rw [List.append_nil] at apart
            intro same
            exact apart c (mem_getLast?_append rfl) same isMark
        | cons d middle => exact ended
      have stillFound : upToMark c (doubled c text ++ c :: (middle ++ after)) =
          some (text, middle ++ after) := upToMark_doubled c text stillEnded
      have innerApart : ∀ d ∈ middle.getLast?, d ∈ after.head? → ¬ (d = mark ∨ d = '\'') := by
        intro d last
        exact apart d (mem_getLast?_append last)
      rw [List.cons_append, List.append_assoc, List.cons_append,
        tokens_quotation isMark stillFound, ih inner innerApart, Option.map_map]
      rfl
  | case4 c rest noMark ih =>
      obtain ⟨later, inner, rfl⟩ := Option.map_eq_some_iff.mp reads
      have innerApart : ∀ d ∈ rest.getLast?, d ∈ after.head? → ¬ (d = mark ∨ d = '\'') := by
        intro d last
        have lastOfAll : d ∈ ([c] ++ rest).getLast? := mem_getLast?_append last
        exact apart d lastOfAll
      rw [List.cons_append, tokens_symbol noMark, ih inner innerApart, Option.map_map]
      rfl

/-! The names in a text. -/

def Token.name? (mark : Char) : Token → Option (List Char)
  | quoted m text => if m = mark then some text else none
  | symbol _ => none

def identifiers (mark : Char) (input : List Char) : Option (List (List Char)) :=
  (tokens mark input).map (List.filterMap (Token.name? mark))

/-- A text in which no quotation starts. -/
def Unquoted (mark : Char) (text : List Char) : Prop :=
  ∀ c ∈ text, ¬ (c = mark ∨ c = '\'')

theorem unquoted_of_all (all : text.all (fun c => c != mark && c != '\'') = true) :
    Unquoted mark text := by
  intro c listed
  have other := List.all_eq_true.mp all c listed
  simpa using other

theorem Unquoted.head_append_ne (unquoted : Unquoted mark text)
    (apart : text = [] → rest.head? ≠ some mark) : (text ++ rest).head? ≠ some mark := by
  cases text with
  | nil => exact apart rfl
  | cons c text =>
      intro same
      exact unquoted c List.mem_cons_self (.inl (Option.some.inj same))

theorem identifiers_append_of_unquoted (unquoted : Unquoted mark text) :
    identifiers mark (text ++ rest) = identifiers mark rest := by
  induction text with
  | nil => rfl
  | cons c text ih =>
      obtain ⟨here, later⟩ := List.forall_mem_cons.mp unquoted
      rw [← ih later, identifiers, identifiers, List.cons_append, tokens_symbol here,
        Option.map_map]
      rfl

end SqlQuery.Text
