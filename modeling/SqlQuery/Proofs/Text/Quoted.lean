/-!
Text between two marks. Inside it the mark itself is written twice, so that the first mark with no
second one after it is the end.
-/

namespace SqlQuery.Text

def doubled (mark : Char) (text : List Char) : List Char :=
  text.flatMap fun c => if c == mark then [mark, mark] else [c]

/-- The text up to the mark that ends it, and what comes after that mark. -/
def upToMark (mark : Char) : List Char → Option (List Char × List Char)
  | [] => none
  | c :: rest =>
      if c = mark then
        match rest with
        | [] => some ([], [])
        | d :: more =>
            if d = mark then (upToMark mark more).map (Prod.map (mark :: ·) id)
            else some ([], d :: more)
      else
        (upToMark mark rest).map (Prod.map (c :: ·) id)

/-- The text between a mark at the start and the mark that ends it. -/
def readQuoted (mark : Char) : List Char → Option (List Char × List Char)
  | [] => none
  | c :: rest => if c = mark then upToMark mark rest else none

variable {mark c : Char} {text rest input : List Char}

@[simp] theorem doubled_nil : doubled mark [] = [] := rfl

@[simp] theorem doubled_cons_self :
    doubled mark (mark :: text) = mark :: mark :: doubled mark text := by
  simp [doubled]

theorem doubled_cons_of_ne (other : c ≠ mark) :
    doubled mark (c :: text) = c :: doubled mark text := by
  simp [doubled, other]

theorem doubled_of_not_mem (free : mark ∉ text) : doubled mark text = text := by
  induction text with
  | nil => rfl
  | cons c text ih =>
      rw [List.mem_cons, not_or] at free
      rw [doubled_cons_of_ne (Ne.symm free.1), ih free.2]

theorem length_doubled (mark : Char) (text : List Char) :
    (doubled mark text).length = text.length + text.count mark := by
  induction text with
  | nil => rfl
  | cons c text ih =>
      by_cases same : c = mark
      · subst same
        simp only [doubled_cons_self, List.length_cons, List.count_cons_self, ih]
        omega
      · simp only [doubled_cons_of_ne same, List.length_cons, List.count_cons_of_ne same, ih]
        omega

/-- Writing a mark twice shows. -/
theorem doubled_eq_self_iff : doubled mark text = text ↔ mark ∉ text := by
  constructor
  · intro same
    have length := congrArg List.length same
    rw [length_doubled] at length
    exact List.count_eq_zero.mp (by omega)
  · exact doubled_of_not_mem

theorem upToMark_end (ended : rest.head? ≠ some mark) :
    upToMark mark (mark :: rest) = some ([], rest) := by
  cases rest with
  | nil => simp [upToMark]
  | cons d more =>
      have other : d ≠ mark := fun same => ended (congrArg some same)
      simp [upToMark, other]

theorem upToMark_twice (mark : Char) (rest : List Char) :
    upToMark mark (mark :: mark :: rest) = (upToMark mark rest).map (Prod.map (mark :: ·) id) := by
  simp [upToMark]

theorem upToMark_cons (other : c ≠ mark) :
    upToMark mark (c :: rest) = (upToMark mark rest).map (Prod.map (c :: ·) id) := by
  cases rest with
  | nil => simp only [upToMark, if_neg other]
  | cons d more => simp only [upToMark, if_neg other]

theorem upToMark_doubled (mark : Char) (text : List Char) (ended : rest.head? ≠ some mark) :
    upToMark mark (doubled mark text ++ mark :: rest) = some (text, rest) := by
  induction text with
  | nil => exact upToMark_end ended
  | cons c text ih =>
      by_cases same : c = mark
      · subst same
        simp only [doubled_cons_self, List.cons_append]
        rw [upToMark_twice, ih]
        rfl
      · rw [doubled_cons_of_ne same, List.cons_append, upToMark_cons same, ih]
        rfl

theorem readQuoted_cons (mark : Char) (rest : List Char) :
    readQuoted mark (mark :: rest) = upToMark mark rest :=
  if_pos rfl

theorem eq_of_upToMark (read : upToMark mark input = some (text, rest)) :
    input = doubled mark text ++ mark :: rest ∧ rest.head? ≠ some mark := by
  fun_induction upToMark mark input generalizing text with
  | case1 => cases read
  | case2 =>
      cases read
      exact ⟨rfl, nofun⟩
  | case3 more ih =>
      obtain ⟨⟨inner, after⟩, found, same⟩ := Option.map_eq_some_iff.mp read
      cases same
      obtain ⟨written, ended⟩ := ih found
      rw [written, doubled_cons_self]
      exact ⟨rfl, ended⟩
  | case4 d more other =>
      cases read
      exact ⟨rfl, fun same => other (Option.some.inj same)⟩
  | case5 c more other ih =>
      obtain ⟨⟨inner, after⟩, found, same⟩ := Option.map_eq_some_iff.mp read
      cases same
      obtain ⟨written, ended⟩ := ih found
      rw [written, doubled_cons_of_ne other]
      exact ⟨rfl, ended⟩

/-- Texts without the mark are told apart by where the mark comes. -/
theorem append_mark_inj {other after : List Char} (free : mark ∉ text) (otherFree : mark ∉ other)
    (same : text ++ mark :: rest = other ++ mark :: after) : text = other ∧ rest = after := by
  induction text generalizing other with
  | nil =>
      cases other with
      | nil => exact ⟨rfl, (List.cons.inj same).2⟩
      | cons c other =>
          cases (List.cons.inj same).1
          exact absurd List.mem_cons_self otherFree
  | cons c text ih =>
      rw [List.mem_cons, not_or] at free
      cases other with
      | nil => exact absurd (List.cons.inj same).1.symm free.1
      | cons d other =>
          rw [List.mem_cons, not_or] at otherFree
          obtain ⟨rfl, later⟩ := List.cons.inj same
          obtain ⟨rfl, equal⟩ := ih free.2 otherFree.2 later
          exact ⟨rfl, equal⟩

theorem length_lt_of_upToMark (read : upToMark mark input = some (text, rest)) :
    rest.length < input.length := by
  rw [(eq_of_upToMark read).1, List.length_append, List.length_cons]
  omega

end SqlQuery.Text
