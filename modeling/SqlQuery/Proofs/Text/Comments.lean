import SqlQuery.Proofs.Dialect.LiteralForms
import SqlQuery.Proofs.Text.Scan

/-!
Comments. Two dashes in a row start one, unless they are inside a quotation. A text that is put
together with plain letters between its parts has the comments of its parts and no others.
-/

namespace SqlQuery.Text

/-- Two dashes in a row outside the quotations. -/
def commented : List Token → Bool
  | [] => false
  | token :: rest =>
      token == .symbol '-' && rest.head? == some (.symbol '-') || commented rest

theorem commented_cons {token : Token} {read : List Token} :
    commented (token :: read) = true ↔
      token = .symbol '-' ∧ read.head? = some (.symbol '-') ∨ commented read = true := by
  simp only [commented, Bool.or_eq_true, Bool.and_eq_true, beq_iff_eq]

theorem commented_append {first second : List Token} :
    commented (first ++ second) = true ↔
      (commented first = true ∨ commented second = true) ∨
        first.getLast? = some (.symbol '-') ∧ second.head? = some (.symbol '-') := by
  induction first with
  | nil => simp [commented]
  | cons token rest ih =>
      rw [List.cons_append, commented_cons, commented_cons, ih]
      cases rest with
      | nil =>
          simp [commented]
          tauto
      | cons next rest =>
          simp only [List.cons_append, List.head?_cons, List.getLast?_cons_cons]
          tauto

/-! Letters of plain texts. -/

/-- The letters that keywords, functions and types are written with, and those between them. -/
def isPlain (c : Char) : Bool :=
  c.isAlphanum || ['_', ' ', '(', ')', ',', '.', ':', '*', '+', '<', '>', '=', '\n'].contains c

def Plain (text : String) : Prop :=
  ∀ c ∈ text.toList, isPlain c = true

/-- A text in the program is the one of its letters. -/
theorem Plain.ofList {letters : List Char} (all : letters.all isPlain = true) :
    Plain (.ofList letters) := by
  rw [Plain, String.toList_ofList]
  exact List.all_eq_true.mp all

theorem plain_empty : Plain "" :=
  Plain.ofList rfl

/-- Plain text of at least one letter. -/
structure Fixed (text : String) : Prop where
  plain : Plain text
  ne_empty : text ≠ ""

theorem Fixed.ofList {c : Char} {letters : List Char} (all : (c :: letters).all isPlain = true) :
    Fixed (.ofList (c :: letters)) :=
  ⟨.ofList all, by simp⟩

theorem Plain.append {first second : String} (plain : Plain first) (other : Plain second) :
    Plain (first ++ second) := by
  rw [Plain, String.toList_append]
  exact List.forall_mem_append.mpr ⟨plain, other⟩

theorem Fixed.spaced {text : String} (fixed : Fixed text) : Fixed (" " ++ text ++ " ") := by
  have blank : Plain " " := .ofList (by decide)
  exact ⟨(blank.append fixed.plain).append blank, by simp⟩

/-- Plain text with a part that may be missing. -/
theorem Plain.append_optional {condition : Bool} {first second : String} (plain : Plain first)
    (other : Plain second) : Plain (first ++ if condition then second else "") := by
  cases condition with
  | false => exact plain.append plain_empty
  | true => exact plain.append other

theorem Plain.intercalate {separator : String} {texts : List String} (plain : Plain separator)
    (all : ∀ text ∈ texts, Plain text) : Plain (separator.intercalate texts) := by
  induction texts with
  | nil =>
      rw [String.intercalate_nil]
      exact plain_empty
  | cons text rest ih =>
      obtain ⟨here, later⟩ := List.forall_mem_cons.mp all
      cases rest with
      | nil => simpa using here
      | cons next rest =>
          rw [String.intercalate_cons_cons]
          exact (here.append plain).append (ih later)

theorem plain_toString (n : Nat) : Plain (toString n) := by
  intro c listed
  rw [Nat.toString_eq_ofList_toDigits, String.toList_ofList] at listed
  simp [isPlain, Char.isAlphanum, isDigit_of_mem_toDigits listed]

theorem isPlain_of_isWordLetter {c : Char} (letter : isWordLetter c = true) : isPlain c = true := by
  rcases Bool.or_eq_true_iff.mp letter with alphanum | point
  · rw [isPlain, alphanum, Bool.true_or]
  · rw [eq_of_beq point]
    decide

/-- The mark is neither a plain letter nor a dash. -/
def PlainMark (mark : Char) : Prop :=
  isPlain mark = false ∧ mark ≠ '-'

/-! The start of a text. -/

def StartsPlain (text : String) : Prop :=
  ∃ c, text.toList.head? = some c ∧ isPlain c = true

theorem StartsPlain.append {text : String} (starts : StartsPlain text) (rest : String) :
    StartsPlain (text ++ rest) := by
  obtain ⟨c, first, plain⟩ := starts
  refine ⟨c, ?_, plain⟩
  rw [String.toList_append, List.head?_append, first]
  rfl

theorem StartsPlain.head?_ne_dash {text : String} (starts : StartsPlain text) :
    text.toList.head? ≠ some '-' := by
  intro dash
  obtain ⟨c, first, plain⟩ := starts
  rw [first] at dash
  cases dash
  exact absurd plain (by decide)

theorem Plain.head?_ne_dash {text : String} (plain : Plain text) :
    text.toList.head? ≠ some '-' := by
  intro dash
  exact absurd (plain _ (List.mem_of_head? dash)) (by decide)

theorem head?_append_plain {text rest : String} (plain : Plain rest) :
    (text ++ rest).toList.head? = some '-' ↔ text.toList.head? = some '-' := by
  rw [String.toList_append, List.head?_append]
  cases text.toList.head? with
  | none =>
      rw [Option.none_or]
      exact ⟨fun dash => absurd dash plain.head?_ne_dash, fun impossible => by cases impossible⟩
  | some c => rfl

theorem head?_between {text rest : String} (separator : String)
    (fixed : Fixed separator) :
    (text ++ separator ++ rest).toList.head? = some '-' ↔ text.toList.head? = some '-' := by
  have letters : (text ++ separator).toList ≠ [] := by simp [fixed.ne_empty]
  rw [String.toList_append, List.head?_append_of_ne_nil _ letters]
  exact head?_append_plain fixed.plain

theorem Fixed.startsPlain {text : String} (fixed : Fixed text) : StartsPlain text := by
  cases first : text.toList.head? with
  | none => exact absurd (by simpa using first) fixed.ne_empty
  | some c => exact ⟨c, first, fixed.plain c (List.mem_of_head? first)⟩

/-- A text that may follow any other. -/
def Follows (text : String) : Prop :=
  ∀ c ∈ text.toList.head?, isPlain c = true

theorem follows_empty : Follows "" := by
  intro c first
  cases first

theorem StartsPlain.follows {text : String} (starts : StartsPlain text) : Follows text := by
  intro c first
  obtain ⟨d, start, plain⟩ := starts
  rw [Option.mem_def.mp first] at start
  cases start
  exact plain

/-! Texts and their comments. -/

/-- The text can be read, has a comment if it must and none unless it may. -/
structure Reads (mark : Char) (must may : Prop) (text : String) : Prop where
  exists_tokens : ∃ read, tokens mark text.toList = some read ∧ (must → commented read = true) ∧
    (commented read = true → may)

theorem Reads.imp {mark : Char} {must must' may may' : Prop} {text : String}
    (reads : Reads mark must may text) (less : must' → must) (more : may → may') :
    Reads mark must' may' text := by
  obtain ⟨read, found, needed, allowed⟩ := reads
  exact ⟨read, found, fun holds => needed (less holds), fun comment => more (allowed comment)⟩

section Tokens

variable {mark : Char} {text : List Char} {read : List Token}

theorem getLast?_of_tokens (found : tokens mark text = some read)
    (dash : read.getLast? = some (.symbol '-')) : text.getLast? = some '-' := by
  obtain ⟨before, rfl⟩ := List.getLast?_eq_some_iff.mp dash
  rw [← spelling_tokens found, List.flatMap_append]
  simp [Token.spelling]

theorem head?_of_tokens (found : tokens mark text = some read)
    (dash : read.head? = some (.symbol '-')) : text.head? = some '-' := by
  obtain ⟨after, rfl⟩ := List.head?_eq_some_iff.mp dash
  rw [← spelling_tokens found, List.flatMap_cons]
  rfl

theorem unquoted_of_isPlain (own : PlainMark mark) {c : Char} (plain : isPlain c = true) :
    ¬ (c = mark ∨ c = '\'') := by
  intro quotes
  rcases quotes with rfl | rfl
  · rw [own.1] at plain
    cases plain
  · exact absurd plain (by decide)

theorem unquoted_dash (own : PlainMark mark) : ¬ ('-' = mark ∨ '-' = '\'') := by
  intro quotes
  rcases quotes with same | same
  · exact own.2 same.symm
  · exact absurd same (by decide)

theorem head?_tokens_of_dash (own : PlainMark mark) (found : tokens mark text = some read)
    (dash : text.head? = some '-') : read.head? = some (.symbol '-') := by
  obtain ⟨after, rfl⟩ := List.head?_eq_some_iff.mp dash
  rw [tokens_symbol (unquoted_dash own)] at found
  obtain ⟨later, _, rfl⟩ := Option.map_eq_some_iff.mp found
  rfl

theorem tokens_of_unquoted (unquoted : Unquoted mark text) :
    tokens mark text = some (text.map .symbol) := by
  induction text with
  | nil => simp [tokens]
  | cons c text ih =>
      obtain ⟨here, later⟩ := List.forall_mem_cons.mp unquoted
      rw [tokens_symbol here, ih later]
      rfl

theorem commented_map_symbol {text : List Char} (plain : '-' ∉ text) :
    commented (text.map .symbol) = false := by
  induction text with
  | nil => rfl
  | cons c text ih =>
      rw [List.mem_cons, not_or] at plain
      rw [Bool.eq_false_iff, List.map_cons, ne_eq, commented_cons, ih plain.2]
      intro starts
      rcases starts with ⟨dash, _⟩ | comment
      · cases dash
        exact plain.1 rfl
      · cases comment

end Tokens

section Reads

variable {mark : Char} (own : PlainMark mark) {must must' may : Prop} {text first second : String}

/-- A plain letter stands on one side of the border. -/
def Apart (first second : String) : Prop :=
  ∀ c ∈ first.toList.getLast?, ∀ d ∈ second.toList.head?, isPlain c = true ∨ isPlain d = true

include own

theorem Reads.append (reads : Reads mark must may first) (other : Reads mark must' may second)
    (apart : Apart first second) : Reads mark (must ∨ must') may (first ++ second) := by
  obtain ⟨read, found, needed, allowed⟩ := reads
  obtain ⟨later, foundLater, neededLater, allowedLater⟩ := other
  have separate : ∀ c ∈ first.toList.getLast?, c ∈ second.toList.head? →
      ¬ (c = mark ∨ c = '\'') := by
    intro c last head
    rcases apart c last c head with plain | plain
    · exact unquoted_of_isPlain own plain
    · exact unquoted_of_isPlain own plain
  refine ⟨read ++ later, ?_, ?_, ?_⟩
  · rw [String.toList_append, tokens_append found separate, foundLater, Option.map_some]
  · intro holds
    rw [commented_append]
    exact .inl (holds.imp needed neededLater)
  · intro comment
    rcases commented_append.mp comment with (here | there) | ⟨last, head⟩
    · exact allowed here
    · exact allowedLater there
    · -- The two dashes would meet at the border.
      rcases apart '-' (getLast?_of_tokens found last) '-' (head?_of_tokens foundLater head)
        with plain | plain
      · exact absurd plain (by decide)
      · exact absurd plain (by decide)

theorem reads_of_plain (plain : Plain text) : Reads mark False may text := by
  have unquoted : Unquoted mark text.toList :=
    fun c listed => unquoted_of_isPlain own (plain c listed)
  have noDash : '-' ∉ text.toList := fun listed => absurd (plain _ listed) (by decide)
  refine ⟨_, tokens_of_unquoted unquoted, False.elim, ?_⟩
  rw [commented_map_symbol noDash]
  exact fun comment => Bool.noConfusion comment

theorem Reads.append_plain (reads : Reads mark must may text) (plain : Plain second) :
    Reads mark must may (text ++ second) := by
  refine (reads.append own (reads_of_plain own plain) ?_).imp .inl id
  intro c _ d head
  exact .inr (plain d (List.mem_of_head? head))

theorem Reads.plain_append (plain : Plain first) (reads : Reads mark must may text) :
    Reads mark must may (first ++ text) := by
  refine ((reads_of_plain own plain).append own reads ?_).imp .inr id
  intro c last d _
  exact .inl (plain c (List.mem_of_getLast? last))

/-- Two texts with a plain one between them. -/
theorem Reads.append_between {separator : String} (reads : Reads mark must may first)
    (fixed : Fixed separator) (other : Reads mark must' may second) :
    Reads mark (must ∨ must') may (first ++ separator ++ second) := by
  refine (reads.append_plain own fixed.plain).append own other ?_
  intro c last d _
  have letters : separator.toList ≠ [] := by simpa using fixed.ne_empty
  rw [String.toList_append, List.getLast?_append_of_ne_nil _ letters] at last
  exact .inl (fixed.plain c (List.mem_of_getLast? last))

/-- Two dashes meet where the sign of a negation comes before another one. -/
theorem Reads.negated (reads : Reads mark must may text)
    (signed : text.toList.head? = some '-' → may) :
    Reads mark (must ∨ text.toList.head? = some '-') may ("(-" ++ text ++ ")") := by
  have opening : isPlain '(' = true := by decide
  have close : Plain ")" := .ofList (by decide)
  obtain ⟨read, found, needed, allowed⟩ := reads.append_plain own close
  have head : (text ++ ")").toList.head? = some '-' ↔ text.toList.head? = some '-' :=
    head?_append_plain close
  have written : tokens mark ("(-" ++ text ++ ")").toList =
      some (.symbol '(' :: .symbol '-' :: read) := by
    rw [String.append_assoc, String.toList_append]
    change tokens mark ('(' :: '-' :: (text ++ ")").toList) = _
    rw [tokens_symbol (unquoted_of_isPlain own opening), tokens_symbol (unquoted_dash own), found]
    rfl
  refine ⟨_, written, ?_, ?_⟩
  · intro holds
    rw [commented_cons, commented_cons]
    rcases holds with inside | dash
    · exact .inr (.inr (needed inside))
    · exact .inr (.inl ⟨rfl, head?_tokens_of_dash own found (head.mpr dash)⟩)
  · rw [commented_cons, commented_cons]
    intro starts
    rcases starts with ⟨impossible, _⟩ | ⟨_, dash⟩ | inside
    · cases impossible
    · exact signed (head.mp (head?_of_tokens found dash))
    · exact allowed inside

/-! Literals. -/

omit own in
theorem reads_quotation {inner : List Char} :
    Reads mark False may (.ofList ('\'' :: (doubled '\'' inner ++ ['\'']))) := by
  have found : upToMark '\'' (doubled '\'' inner ++ ['\'']) = some (inner, []) :=
    upToMark_doubled '\'' inner (by simp)
  refine ⟨[.quoted '\'' inner], ?_, False.elim, fun comment => Bool.noConfusion comment⟩
  rw [String.toList_ofList, tokens_quotation (.inr rfl) found]
  simp [tokens]

theorem IsQuotation.reads (isQuotation : IsQuotation text.toList) : Reads mark False may text := by
  obtain ⟨before, inner, after, opening, closing, written⟩ := isQuotation
  have parts : text = .ofList before ++ .ofList ('\'' :: (doubled '\'' inner ++ ['\''])) ++
      .ofList after := by
    rw [← String.toList_inj, written]
    simp
  have plainBefore : Plain (.ofList before) := by
    rcases opening with rfl | rfl
    · exact .ofList (by decide)
    · exact .ofList (by decide)
  have plainAfter : Plain (.ofList after) := by
    rcases closing with rfl | rfl
    · exact .ofList (by decide)
    · exact .ofList (by decide)
  rw [parts]
  exact (reads_quotation.plain_append own plainBefore).append_plain own plainAfter

theorem reads_dash : Reads mark False may "-" := by
  refine ⟨[.symbol '-'], ?_, False.elim, fun comment => Bool.noConfusion comment⟩
  change tokens mark ['-'] = _
  rw [tokens_symbol (unquoted_dash own)]
  simp [tokens]

/-- A sign alone starts no comment. -/
theorem reads_signed {word : List Char} (isWord : IsWord word) :
    Reads mark False may (.ofList ('-' :: word)) := by
  have noDash : '-' ∉ word := fun listed => absurd (isWord.2 _ listed) (by decide)
  have unquoted : Unquoted mark ('-' :: word) := by
    refine List.forall_mem_cons.mpr ⟨unquoted_dash own, fun c listed => ?_⟩
    exact unquoted_of_isPlain own (isPlain_of_isWordLetter (isWord.2 c listed))
  refine ⟨_, by rw [String.toList_ofList, tokens_of_unquoted unquoted], False.elim, ?_⟩
  rw [List.map_cons, commented_cons, commented_map_symbol noDash]
  intro starts
  rcases starts with ⟨_, dash⟩ | comment
  · rw [List.head?_map] at dash
    obtain ⟨c, first, same⟩ := Option.map_eq_some_iff.mp dash
    cases same
    exact absurd (List.mem_of_head? first) noDash
  · cases comment

theorem LiteralForm.reads {signed : Bool} (form : LiteralForm signed text.toList) :
    Reads mark False may text := by
  generalize written : text.toList = letters at form
  cases form with
  | word isWord =>
      refine reads_of_plain own fun c listed => ?_
      rw [written] at listed
      exact isPlain_of_isWordLetter (isWord.2 c listed)
  | signed isWord =>
      rw [← String.ofList_toList (s := text), written]
      exact reads_signed own isWord
  | quotation isQuotation => exact IsQuotation.reads own (written ▸ isQuotation)

omit own in
theorem LiteralForm.head?_eq_dash_iff {signed : Bool} {text : List Char}
    (form : LiteralForm signed text) : text.head? = some '-' ↔ signed = true := by
  cases form with
  | word isWord =>
      refine ⟨fun dash => ?_, fun impossible => Bool.noConfusion impossible⟩
      exact absurd (isWord.2 _ (List.mem_of_head? dash)) (by decide)
  | signed => exact ⟨fun _ => rfl, fun _ => rfl⟩
  | quotation isQuotation =>
      refine ⟨fun dash => ?_, fun impossible => Bool.noConfusion impossible⟩
      obtain ⟨before, inner, after, opening, _, rfl⟩ := isQuotation
      rcases opening with rfl | rfl
      · exact absurd (Option.some.inj dash) (by decide)
      · exact absurd (Option.some.inj dash) (by decide)

end Reads

end SqlQuery.Text
