import Mathlib.Data.List.TakeWhile
import SqlQuery.Proofs.Dialect.Literal

/-!
The forms of literals: words, which are keywords and numbers with a sign or without, and texts
between single quotes. The form of a literal shows where it ends, and only a negative number starts
with a sign.
-/

namespace SqlQuery

namespace Text

def isWordLetter (c : Char) : Bool :=
  c.isAlphanum || c == '.'

def IsWord (text : List Char) : Prop :=
  text ≠ [] ∧ ∀ c ∈ text, isWordLetter c = true

/-- Text between single quotes, which may be marked as bytes before or after it. -/
def IsQuotation (text : List Char) : Prop :=
  ∃ before inner after, (before = [] ∨ before = ['X']) ∧ (after = [] ∨ after = "::BLOB".toList) ∧
    text = before ++ '\'' :: (doubled '\'' inner ++ '\'' :: after)

/-- The texts of literals, with a sign at the start or without one. -/
inductive LiteralForm : Bool → List Char → Prop
  | word {text} (isWord : IsWord text) : LiteralForm false text
  | signed {text} (isWord : IsWord text) : LiteralForm true ('-' :: text)
  | quotation {text} (isQuotation : IsQuotation text) : LiteralForm false text

/-! Words. -/

theorem isWordLetter_of_isDigit {c : Char} (digit : c.isDigit = true) : isWordLetter c = true := by
  simp [isWordLetter, Char.isAlphanum, digit]

theorem isWord_of_all (text : String)
    (all : (!text.toList.isEmpty && text.toList.all isWordLetter) = true) :
    IsWord text.toList := by
  obtain ⟨some, letters⟩ := Bool.and_eq_true_iff.mp all
  exact ⟨by simpa using some, List.all_eq_true.mp letters⟩

theorem isWord_of_digits {text : List Char} (some : text ≠ [])
    (digits : ∀ c ∈ text, c.isDigit = true) : IsWord text :=
  ⟨some, fun c listed => isWordLetter_of_isDigit (digits c listed)⟩

theorem isDigit_of_mem_toDigits {n : Nat} {c : Char} (listed : c ∈ Nat.toDigits 10 n) :
    c.isDigit = true :=
  Nat.isDigit_of_mem_toDigits (by decide) (by decide) listed

theorem isWord_toDigits (n : Nat) : IsWord (Nat.toDigits 10 n) :=
  isWord_of_digits Nat.toDigits_ne_nil fun _ => isDigit_of_mem_toDigits

theorem isDigit_of_mem_significant {digits : Decimal.Digits} {c : Char}
    (listed : c ∈ digits.significant) : c.isDigit = true := by
  have kept := List.mem_reverse.mp listed
  exact isDigit_of_mem_toDigits (List.mem_reverse.mp ((List.dropWhile_sublist _).subset kept))

theorem toList_zeros (n : Nat) : (Decimal.zeros n).toList = List.replicate n '0' :=
  String.toList_ofList

theorem isWord_positional (digits : Decimal.Digits) : IsWord digits.positional.toList := by
  have zero : isWordLetter '0' = true := by decide
  have point : isWordLetter '.' = true := by decide
  have significant : ∀ c ∈ digits.significant, isWordLetter c = true := by
    intro c listed
    exact isWordLetter_of_isDigit (isDigit_of_mem_significant listed)
  have padding (n : Nat) : ∀ c ∈ (Decimal.zeros n).toList, isWordLetter c = true := by
    intro c listed
    rw [toList_zeros] at listed
    rw [List.eq_of_mem_replicate listed]
    exact zero
  rw [Decimal.Digits.positional]
  split
  · simp only [String.toList_append, String.toList_ofList]
    refine ⟨by simp, ?_⟩
    simp only [List.forall_mem_append]
    refine ⟨⟨?_, padding _⟩, significant⟩
    exact List.forall_mem_cons.mpr ⟨zero, List.forall_mem_singleton.mpr point⟩
  · rename_i positive
    split
    · rename_i whole
      simp only [String.toList_append, String.toList_ofList]
      refine ⟨?_, List.forall_mem_append.mpr ⟨significant, padding _⟩⟩
      -- A number without digits is written with zeros alone, and there is one of them at least.
      intro empty
      obtain ⟨none, padded⟩ := List.append_eq_nil_iff.mp empty
      rw [toList_zeros, List.replicate_eq_nil_iff, none, List.length_nil] at padded
      omega
    · rename_i longer
      simp only [String.toList_append, String.toList_ofList]
      refine ⟨by simp, ?_⟩
      simp only [List.forall_mem_append]
      refine ⟨⟨?_, List.forall_mem_singleton.mpr point⟩, ?_⟩
      · exact fun c listed => significant c (List.mem_of_mem_take listed)
      · exact fun c listed => significant c (List.mem_of_mem_drop listed)

end Text

open Text

/-! Numbers. -/

/-- Whether a number is written with a sign: a NaN is not. -/
def BinaryFormat.showsSign (format : BinaryFormat) (bits : Nat) : Bool :=
  format.isNegative bits && format.magnitude bits != .notANumber

def Value.isNegative : Value → Bool
  | .int n => decide (n.toInt < 0)
  | .float x => BinaryFormat.double.showsSign x.bits.toNat
  | _ => false

theorem literalForm_int (n : Int) : LiteralForm (decide (n < 0)) (toString n).toList := by
  cases n with
  | ofNat m =>
      rw [show (toString (Int.ofNat m)).toList = Nat.toDigits 10 m from toList_toString_ofNat m]
      exact .word (isWord_toDigits m)
  | negSucc m =>
      rw [toList_toString_negSucc, decide_eq_true (Int.negSucc_lt_zero m)]
      exact .signed (isWord_toDigits (m + 1))

theorem literalForm_signed {text : String} (isWord : IsWord text.toList) (negative : Bool) :
    LiteralForm negative ((if negative then "-" else "") ++ text).toList := by
  rw [String.toList_append]
  cases negative with
  | false => exact .word isWord
  | true => exact .signed isWord

theorem literalForm_float (format : BinaryFormat) (bits : Nat) :
    LiteralForm (format.showsSign bits) (format.literal bits).toList := by
  rw [BinaryFormat.literal, BinaryFormat.showsSign]
  cases format.magnitude bits with
  | notANumber =>
      rw [bne_self_eq_false, Bool.and_false]
      exact .word (isWord_of_all "NaN" (by decide))
  | infinite =>
      simp only [show (BinaryFormat.Magnitude.infinite != .notANumber) = true from rfl,
        Bool.and_true]
      exact literalForm_signed (isWord_of_all _ (by decide)) _
  | zero =>
      simp only [show (BinaryFormat.Magnitude.zero != .notANumber) = true from rfl, Bool.and_true]
      exact literalForm_signed (isWord_of_all _ (by decide)) _
  | finite value =>
      simp only [show (BinaryFormat.Magnitude.finite value != .notANumber) = true from rfl,
        Bool.and_true]
      exact literalForm_signed (isWord_positional _) _

/-! Quotations. -/

theorem isQuotation_text (text : String) : IsQuotation (Dialect.textLiteral text).toList := by
  refine ⟨[], text.toList, [], .inl rfl, .inl rfl, ?_⟩
  simp only [Dialect.textLiteral, String.toList_append, String.toList_ofList]
  rfl

theorem isQuotation_of_not_mem {text : String} (free : '\'' ∉ text.toList) :
    IsQuotation ("'" ++ text ++ "'").toList := by
  refine ⟨[], text.toList, [], .inl rfl, .inl rfl, ?_⟩
  rw [doubled_of_not_mem free, String.toList_append, String.toList_append]
  rfl

theorem quote_not_mem_padded (width n : Nat) : '\'' ∉ (Date.padded width n).toList := by
  intro listed
  rw [Date.padded, String.toList_append, String.toList_ofList, Nat.toString_eq_ofList_toDigits,
    String.toList_ofList, List.mem_append] at listed
  rcases listed with listed | listed
  · exact absurd (List.eq_of_mem_replicate listed) (by decide)
  · exact absurd (isDigit_of_mem_toDigits listed) (by decide)

theorem quote_not_mem_yearText (year : Int) : '\'' ∉ (Date.yearText year).toList := by
  rw [Date.yearText]
  split
  · exact quote_not_mem_padded 4 _
  · rw [String.toList_append, List.mem_append, not_or]
    refine ⟨?_, quote_not_mem_padded 4 _⟩
    split <;> decide

theorem quote_not_mem_timestamp (t : Timestamp) : '\'' ∉ t.text.toList := by
  simp only [Timestamp.text, Date.text, String.toList_append, List.mem_append, not_or,
    quote_not_mem_padded, quote_not_mem_yearText, not_false_eq_true, true_and, and_true]
  decide

theorem isQuotation_hexBytes (bytes : List UInt8) : IsQuotation (hexBytes bytes).toList := by
  refine ⟨['X'], hexText bytes, [], .inr rfl, .inl rfl, ?_⟩
  rw [doubled_of_not_mem (quote_not_mem_hexText bytes)]
  simp [hexBytes, hexText, String.toList_append, String.toList_join, List.flatMap_map]

theorem isQuotation_escapedBytes (bytes : List UInt8) :
    IsQuotation (Dialect.DuckDB.bytesLiteral bytes).toList := by
  refine ⟨[], escapedText bytes, "::BLOB".toList, .inl rfl, .inr rfl, ?_⟩
  rw [doubled_of_not_mem (quote_not_mem_escapedText bytes)]
  simp [Dialect.DuckDB.bytesLiteral, escapedText, String.toList_append, String.toList_join,
    List.flatMap_map]

/-! All literals. -/

/-- Literals follow the rules that hold unless a dialect has its own: times are written between
single quotes, and bytes in one of the two known forms. -/
structure Dialect.UsualLiterals (d : Dialect) : Prop where
  literal : d.literal = literalText d.timestampLiteral d.bytesLiteral
  timestamps : ∀ t, d.timestampLiteral t = "'" ++ t.text ++ "'"
  bytes : d.WritesBytes

theorem Dialect.UsualLiterals.form {d : Dialect} (usual : d.UsualLiterals) (v : Value) :
    LiteralForm v.isNegative (d.literal v).toList := by
  rw [usual.literal]
  cases v with
  | null => exact .word (isWord_of_all "NULL" (by decide))
  | bool b =>
      cases b with
      | false => exact .word (isWord_of_all "FALSE" (by decide))
      | true => exact .word (isWord_of_all "TRUE" (by decide))
  | int n => exact literalForm_int n.toInt
  | float x => exact literalForm_float BinaryFormat.double x.bits.toNat
  | text s => exact .quotation (isQuotation_text s)
  | timestamp t =>
      rw [Dialect.literalText, usual.timestamps]
      exact .quotation (isQuotation_of_not_mem (quote_not_mem_timestamp t))
  | bytes b =>
      rw [Dialect.literalText]
      rcases usual.bytes with form | form
      · rw [form]
        exact .quotation (isQuotation_hexBytes b)
      · rw [form]
        exact .quotation (isQuotation_escapedBytes b)

/-! Where a literal ends. -/

namespace Text

/-- What a word may go on with. -/
def goesOn (c : Char) : Bool :=
  isWordLetter c || c == '-'

theorem goesOn_eq_false_of_ends {rest : List Char} (ended : Ends rest) :
    rest.takeWhile goesOn = [] ∧ rest.dropWhile goesOn = rest := by
  cases rest with
  | nil => exact ⟨rfl, rfl⟩
  | cons c rest =>
      rcases ended c rfl with rfl | rfl | rfl
      · exact ⟨rfl, rfl⟩
      · exact ⟨rfl, rfl⟩
      · exact ⟨rfl, rfl⟩

theorem goesOn_of_isWord {text : List Char} (isWord : IsWord text) :
    ∀ c ∈ text, goesOn c = true := by
  intro c listed
  rw [goesOn, isWord.2 c listed, Bool.true_or]

theorem cut_of_goesOn {text rest : List Char} (all : ∀ c ∈ text, goesOn c = true)
    (ended : Ends rest) :
    (text ++ rest).takeWhile goesOn = text ∧ (text ++ rest).dropWhile goesOn = rest := by
  obtain ⟨none, same⟩ := goesOn_eq_false_of_ends ended
  rw [List.takeWhile_append_of_pos all, List.dropWhile_append_of_pos all, none, same,
    List.append_nil]
  exact ⟨rfl, rfl⟩

theorem LiteralForm.isQuotation_or_cut {signed : Bool} {text : List Char}
    (form : LiteralForm signed text) : IsQuotation text ∨ ∀ c ∈ text, goesOn c = true := by
  cases form with
  | word isWord => exact .inr (goesOn_of_isWord isWord)
  | signed isWord => exact .inr (List.forall_mem_cons.mpr ⟨rfl, goesOn_of_isWord isWord⟩)
  | quotation isQuotation => exact .inl isQuotation

theorem IsQuotation.cut {text : List Char} (isQuotation : IsQuotation text) (rest : List Char) :
    ∃ more, (text ++ rest).dropWhile goesOn = '\'' :: more := by
  obtain ⟨before, inner, after, opening, _, rfl⟩ := isQuotation
  rcases opening with rfl | rfl
  · exact ⟨_, rfl⟩
  · exact ⟨_, rfl⟩

theorem IsQuotation.not_cut {text other rest after : List Char} (isQuotation : IsQuotation text)
    (all : ∀ c ∈ other, goesOn c = true) (ended : Ends after) :
    text ++ rest ≠ other ++ after := by
  intro same
  obtain ⟨more, start⟩ := isQuotation.cut rest
  rw [same, (cut_of_goesOn all ended).2] at start
  exact ended.head_ne (by decide) (congrArg List.head? start)

theorem suffix_determined {suffix other rest after : List Char}
    (closing : suffix = [] ∨ suffix = "::BLOB".toList)
    (otherClosing : other = [] ∨ other = "::BLOB".toList) (ended : Ends rest)
    (otherEnded : Ends after) (same : suffix ++ rest = other ++ after) :
    suffix = other ∧ rest = after := by
  have unmarked {rest : List Char} (ended : Ends rest) (after : List Char) :
      rest ≠ "::BLOB".toList ++ after := by
    rintro rfl
    exact ended.head_ne (by decide) rfl
  rcases closing with rfl | rfl
  · rcases otherClosing with rfl | rfl
    · exact ⟨rfl, same⟩
    · exact absurd same (unmarked ended after)
  · rcases otherClosing with rfl | rfl
    · exact absurd same.symm (unmarked otherEnded rest)
    · exact ⟨rfl, List.append_cancel_left same⟩

theorem suffix_unquoted {suffix rest : List Char}
    (closing : suffix = [] ∨ suffix = "::BLOB".toList) (ended : Ends rest) :
    (suffix ++ rest).head? ≠ some '\'' := by
  rcases closing with rfl | rfl
  · exact ended.head_ne (by decide)
  · exact fun same => absurd (Option.some.inj same) (by decide)

theorem IsQuotation.determined {text other rest after : List Char} (first : IsQuotation text)
    (second : IsQuotation other) (ended : Ends rest) (otherEnded : Ends after)
    (same : text ++ rest = other ++ after) : text = other ∧ rest = after := by
  obtain ⟨before, inner, suffix, opening, closing, rfl⟩ := first
  obtain ⟨before', inner', suffix', opening', closing', rfl⟩ := second
  -- Whether a letter stands before the quote shows at the first character.
  have starts : before = before' := by
    rcases opening with rfl | rfl
    · rcases opening' with rfl | rfl
      · rfl
      · exact absurd (List.cons.inj same).1 (by decide)
    · rcases opening' with rfl | rfl
      · exact absurd (List.cons.inj same).1 (by decide)
      · rfl
  subst starts
  simp only [List.append_assoc, List.cons_append, List.append_cancel_left_eq, List.cons.injEq,
    true_and] at same
  have read := congrArg (upToMark '\'') same
  rw [upToMark_doubled _ _ (suffix_unquoted closing ended),
    upToMark_doubled _ _ (suffix_unquoted closing' otherEnded)] at read
  obtain ⟨rfl, tails⟩ := Prod.mk.inj (Option.some.inj read)
  obtain ⟨rfl, rests⟩ := suffix_determined closing closing' ended otherEnded tails
  exact ⟨rfl, rests⟩

/-- In front of what may follow it, a literal ends where it ends. -/
theorem LiteralForm.determined {signed signed' : Bool} {text other rest after : List Char}
    (first : LiteralForm signed text) (second : LiteralForm signed' other) (ended : Ends rest)
    (otherEnded : Ends after) (same : text ++ rest = other ++ after) :
    text = other ∧ rest = after := by
  rcases first.isQuotation_or_cut with quoted | all
  · rcases second.isQuotation_or_cut with quoted' | all'
    · exact quoted.determined quoted' ended otherEnded same
    · exact absurd same (quoted.not_cut all' otherEnded)
  · rcases second.isQuotation_or_cut with quoted' | all'
    · exact absurd same.symm (quoted'.not_cut all ended)
    · have cut := cut_of_goesOn all ended
      have cut' := cut_of_goesOn all' otherEnded
      rw [same] at cut
      exact ⟨cut.1.symm.trans cut'.1, cut.2.symm.trans cut'.2⟩

end Text

end SqlQuery
