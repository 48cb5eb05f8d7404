import Mathlib.Data.List.Forall2
import Mathlib.Data.List.TakeWhile
import Mathlib.Data.Option.Basic
import SqlQuery.Proofs.Dialect.Literal
import SqlQuery.Proofs.Text.Capitals

/-!
Native type names and the types that they stand for. A name gives the scale of a decimal exactly if
it has the form of one, and otherwise its class decides; the name of each type so found stands for
that type again.
-/

namespace SqlQuery

namespace Text

/-! Blanks at the ends. -/

theorem dropWhile_isBlank_of_head {text : List Char}
    (start : ∀ c ∈ text.head?, isBlank c = false) : text.dropWhile isBlank = text := by
  cases text with
  | nil => rfl
  | cons c rest =>
      rw [List.dropWhile_cons_of_neg]
      simp [start c rfl]

theorem trim_of_ends {text : String} (start : ∀ c ∈ text.toList.head?, isBlank c = false)
    (last : ∀ c ∈ text.toList.getLast?, isBlank c = false) : trim text = text := by
  have reversed : ∀ c ∈ text.toList.reverse.head?, isBlank c = false := by
    rwa [List.head?_reverse]
  rw [trim, dropWhile_isBlank_of_head start, dropWhile_isBlank_of_head reversed,
    List.reverse_reverse, String.ofList_toList]

/-- A text without the blanks at its two ends. -/
structure Trimmed (whole text : List Char) : Prop where
  split : ∃ before after, whole = before ++ (text ++ after) ∧
    (∀ c ∈ before, isBlank c = true) ∧ ∀ c ∈ after, isBlank c = true
  start : ∀ c ∈ text.head?, isBlank c = false
  last : ∀ c ∈ text.getLast?, isBlank c = false

theorem head_dropWhile_isBlank {text : List Char} :
    ∀ c ∈ (text.dropWhile isBlank).head?, isBlank c = false := by
  intro c first
  have stopped := List.head?_dropWhile_not isBlank text
  rw [Option.mem_def.mp first] at stopped
  exact stopped

theorem trimmed_trim (text : String) : Trimmed text.toList (trim text).toList := by
  let rest := text.toList.dropWhile isBlank
  let kept := (rest.reverse.dropWhile isBlank).reverse
  let after := (rest.reverse.takeWhile isBlank).reverse
  have whole : rest = kept ++ after := by
    rw [← List.reverse_append, List.takeWhile_append_dropWhile, List.reverse_reverse]
  rw [trim, String.toList_ofList]
  refine ⟨⟨text.toList.takeWhile isBlank, after, ?_, fun _ => List.mem_takeWhile_imp, ?_⟩, ?_, ?_⟩
  · rw [← whole, List.takeWhile_append_dropWhile]
  · intro c listed
    exact List.mem_takeWhile_imp (List.mem_reverse.mp listed)
  · intro c first
    have start : c ∈ rest.head? := by
      rw [whole, List.head?_append, Option.mem_def.mp first]
      rfl
    exact head_dropWhile_isBlank c start
  · intro c last
    rw [List.getLast?_reverse] at last
    exact head_dropWhile_isBlank c last

/-! Digits. -/

/-- One decimal digit or more, of any script. -/
def IsNumber (digits : List Char) : Prop :=
  digits ≠ [] ∧ ∀ c ∈ digits, isDecimalDigit c = true

theorem isBlank_of_isDecimalDigit {c : Char} (digit : isDecimalDigit c = true) :
    isBlank c = false := by
  obtain ⟨first, listed, between⟩ := List.any_eq_true.mp digit
  rw [Bool.and_eq_true, decide_eq_true_eq, decide_eq_true_eq] at between
  have apart : ∀ first ∈ digitZeros, ∀ k < 10, isBlank (.ofNat (first + k)) = false := by decide
  have inside := apart first listed (c.toNat - first) (by omega)
  rwa [Nat.add_sub_cancel' between.1, Char.ofNat_toNat] at inside

theorem isDecimalDigit_of_isDigit {c : Char} (digit : c.isDigit = true) :
    isDecimalDigit c = true := by
  refine List.any_eq_true.mpr ⟨0x30, List.mem_cons_self, ?_⟩
  rw [Char.isDigit, Bool.and_eq_true, decide_eq_true_eq, decide_eq_true_eq] at digit
  have low : 0x30 ≤ c.toNat := digit.1
  have high : c.toNat ≤ 0x39 := digit.2
  rw [Bool.and_eq_true, decide_eq_true_eq, decide_eq_true_eq]
  omega

theorem le_ofDigitChars (digits : List Char) (value : Nat) :
    value ≤ Nat.ofDigitChars 10 digits value := by
  induction digits generalizing value with
  | nil => exact Nat.le_refl value
  | cons c rest ih =>
      rw [Nat.ofDigitChars_cons]
      have later := ih (10 * value + (c.toNat - '0'.toNat))
      omega

theorem readUInt32From_eq_ok_iff {digits : List Char} {value : Nat} (fits : value < UInt32.size)
    {n : UInt32} :
    readUInt32From value digits = .ok n ↔
      (∀ c ∈ digits, c.isDigit = true) ∧ Nat.ofDigitChars 10 digits value = n.toNat := by
  induction digits generalizing value with
  | nil =>
      have same : UInt32.ofNat value = n ↔ value = n.toNat := by
        rw [← UInt32.toNat_inj, UInt32.toNat_ofNat_of_lt' fits]
      simpa [readUInt32From] using same
  | cons c rest ih =>
      let next := 10 * value + (c.toNat - '0'.toNat)
      rw [List.forall_mem_cons, Nat.ofDigitChars_cons, and_assoc]
      by_cases digit : c.isDigit = true
      · by_cases large : UInt32.size ≤ next
        · -- a number that has become too large stays so
          have stopped : readUInt32From value (c :: rest) = .error .tooLarge := by
            simp only [readUInt32From, digit, Bool.not_true, Bool.false_eq_true, if_false]
            exact if_pos large
          rw [stopped]
          constructor
          · intro impossible
            cases impossible
          · intro read
            obtain ⟨-, -, same⟩ := read
            have more : next ≤ n.toNat := same ▸ le_ofDigitChars rest next
            have bound := n.toNat_lt_size
            omega
        · have goesOn : readUInt32From value (c :: rest) = readUInt32From next rest := by
            simp only [readUInt32From, digit, Bool.not_true, Bool.false_eq_true, if_false]
            exact if_neg large
          rw [goesOn, ih (Nat.not_le.mp large)]
          exact ⟨fun read => ⟨digit, read⟩, And.right⟩
      · have stopped : readUInt32From value (c :: rest) = .error .invalidDigit := by
          simp only [readUInt32From, digit, Bool.not_false, if_true]
        rw [stopped]
        constructor
        · intro impossible
          cases impossible
        · intro read
          exact absurd read.1 digit

theorem readUInt32_eq_ok_iff {digits : List Char} {n : UInt32} :
    readUInt32 digits = .ok n ↔
      (∀ c ∈ digits, c.isDigit = true) ∧ Nat.ofDigitChars 10 digits 0 = n.toNat :=
  readUInt32From_eq_ok_iff (by decide)

theorem exists_readUInt32_eq_error_iff {digits : List Char} :
    (∃ fault, readUInt32 digits = .error fault) ↔
      (∃ c ∈ digits, c.isDigit = false) ∨ UInt32.size ≤ Nat.ofDigitChars 10 digits 0 := by
  constructor
  · intro found
    obtain ⟨fault, failed⟩ := found
    by_contra fine
    obtain ⟨ascii, fits⟩ := not_or.mp fine
    have digits : ∀ c ∈ digits, c.isDigit = true := by simpa using ascii
    have read := readUInt32_eq_ok_iff.mpr
      ⟨digits, (UInt32.toNat_ofNat_of_lt' (Nat.not_le.mp fits)).symm⟩
    rw [failed] at read
    cases read
  · intro faulty
    cases read : readUInt32 digits with
    | error fault => exact ⟨fault, rfl⟩
    | ok n =>
        obtain ⟨ascii, value⟩ := readUInt32_eq_ok_iff.mp read
        rcases faulty with ⟨c, listed, other⟩ | large
        · rw [ascii c listed] at other
          cases other
        · have bound := n.toNat_lt_size
          omega

end Text

open Text

namespace Dialect.DuckDB

/-! Decimals. -/

/-- `DECIMAL(precision, scale)` with its scale: the letters in any case, the digits of any script,
and blanks only after the comma. -/
inductive DecimalName : List Char → List Char → Prop
  | mk {name precision blanks scale : List Char}
      (named : List.Forall₂ (fun c letter => c = letter ∨ c = letter.toLower) name "DECIMAL".toList)
      (precise : IsNumber precision) (spaced : ∀ c ∈ blanks, isBlank c = true)
      (scaled : IsNumber scale) :
      DecimalName (name ++ '(' :: (precision ++ ',' :: (blanks ++ (scale ++ [')'])))) scale

theorem afterKeyword?_eq_some_iff {keyword text rest : List Char} :
    afterKeyword? keyword text = some rest ↔
      ∃ name, text = name ++ rest ∧ name.map Char.toUpper = keyword := by
  constructor
  · intro found
    fun_induction afterKeyword? keyword text with
    | case1 text => exact ⟨[], Option.some.inj found, rfl⟩
    | case2 => cases found
    | case3 k keyword c text same ih =>
        obtain ⟨name, split, letters⟩ := ih found
        exact ⟨c :: name, congrArg (c :: ·) split, by rw [List.map_cons, eq_of_beq same, letters]⟩
    | case4 => cases found
  · intro found
    obtain ⟨name, rfl, rfl⟩ := found
    induction name with
    | nil => rfl
    | cons c name ih => simpa [afterKeyword?] using ih

theorem map_toUpper_eq_iff {name keyword : List Char}
    (upper : keyword.all Char.isUpper = true) :
    name.map Char.toUpper = keyword ↔
      List.Forall₂ (fun c letter => c = letter ∨ c = letter.toLower) name keyword := by
  induction keyword generalizing name with
  | nil => rw [List.map_eq_nil_iff, List.forall₂_nil_right_iff]
  | cons letter keyword ih =>
      rw [List.all_cons, Bool.and_eq_true] at upper
      rw [List.forall₂_cons_right_iff, List.map_eq_cons_iff]
      simp only [ih upper.2, toUpper_eq_iff upper.1]
      constructor
      · intro letters
        obtain ⟨c, rest, rfl, same, others⟩ := letters
        exact ⟨c, rest, same, others, rfl⟩
      · intro letters
        obtain ⟨c, rest, same, others, rfl⟩ := letters
        exact ⟨c, rest, rfl, same, others⟩

/-- A run of digits in front of something else is found again. -/
theorem span_digits {digits : List Char} {c : Char} (rest : List Char) (number : IsNumber digits)
    (other : isDecimalDigit c = false) :
    (digits ++ c :: rest).takeWhile isDecimalDigit = digits ∧
      (digits ++ c :: rest).dropWhile isDecimalDigit = c :: rest := by
  rw [List.takeWhile_append_of_pos number.2, List.dropWhile_append_of_pos number.2]
  simp [other]

theorem dropWhile_blanks {blanks digits rest : List Char} (spaced : ∀ c ∈ blanks, isBlank c = true)
    (number : IsNumber digits) :
    (blanks ++ (digits ++ rest)).dropWhile isBlank = digits ++ rest := by
  rw [List.dropWhile_append_of_pos spaced]
  obtain ⟨some, all⟩ := number
  cases digits with
  | nil => exact absurd rfl some
  | cons c digits =>
      apply dropWhile_isBlank_of_head
      intro d first
      cases first
      exact isBlank_of_isDecimalDigit (all c List.mem_cons_self)

theorem scaleDigits?_eq_some {text digits : List Char} :
    scaleDigits? text = some digits ↔
      ∃ afterName rest, afterKeyword? "DECIMAL(".toList text = some afterName ∧
        afterName.takeWhile isDecimalDigit ≠ [] ∧
        afterName.dropWhile isDecimalDigit = ',' :: rest ∧
        (rest.dropWhile isBlank).takeWhile isDecimalDigit = digits ∧ digits ≠ [] ∧
        (rest.dropWhile isBlank).dropWhile isDecimalDigit = [')'] := by
  constructor
  · intro found
    obtain ⟨afterName, keyword, found⟩ := Option.bind_eq_some_iff.mp found
    obtain ⟨_, precise, found⟩ := Option.bind_eq_some_iff.mp found
    split at found
    · rename_i rest after
      obtain ⟨_, closed, result⟩ := Option.bind_eq_some_iff.mp found
      cases result
      exact ⟨afterName, rest, keyword, (Option.guard_eq_some' _).mp precise, after, rfl,
        (Option.guard_eq_some' _).mp closed⟩
    · cases found
  · intro form
    obtain ⟨afterName, rest, keyword, precise, after, rfl, closed⟩ := form
    refine Option.bind_eq_some_iff.mpr ⟨afterName, keyword, ?_⟩
    refine Option.bind_eq_some_iff.mpr ⟨(), (Option.guard_eq_some' _).mpr precise, ?_⟩
    rw [after]
    exact Option.bind_eq_some_iff.mpr ⟨(), (Option.guard_eq_some' _).mpr closed, rfl⟩

/-- The scale is read exactly from the names of that form. -/
theorem scaleDigits?_eq_some_iff {text digits : List Char} :
    scaleDigits? text = some digits ↔ DecimalName text digits := by
  rw [scaleDigits?_eq_some]
  constructor
  · intro found
    obtain ⟨afterName, rest, keyword, precise, after, rfl, scaled, closed⟩ := found
    obtain ⟨named, rfl, letters⟩ := afterKeyword?_eq_some_iff.mp keyword
    obtain ⟨name, mark, rfl, isName, isMark⟩ := List.map_eq_append_iff.mp
      (letters.trans (by decide : "DECIMAL(".toList = "DECIMAL".toList ++ ['(']))
    obtain ⟨c, rfl, opened⟩ := List.map_eq_singleton_iff.mp isMark
    cases eq_of_toUpper_eq (by decide) opened
    let blanks := rest.takeWhile isBlank
    let scale := (rest.dropWhile isBlank).takeWhile isDecimalDigit
    have form : DecimalName (name ++ '(' :: (afterName.takeWhile isDecimalDigit ++ ',' ::
        (blanks ++ (scale ++ [')'])))) scale :=
      .mk ((map_toUpper_eq_iff (by decide)).mp isName) ⟨precise, fun _ => List.mem_takeWhile_imp⟩
        (fun _ => List.mem_takeWhile_imp) ⟨scaled, fun _ => List.mem_takeWhile_imp⟩
    rw [← closed, List.takeWhile_append_dropWhile, List.takeWhile_append_dropWhile, ← after,
      List.takeWhile_append_dropWhile, List.append_cons] at form
    exact form
  · intro form
    cases form with
    | @mk name precision blanks _ named precise spaced scaled =>
        have letters := (map_toUpper_eq_iff (by decide)).mpr named
        obtain ⟨first, afterFirst⟩ := span_digits (blanks ++ (digits ++ [')'])) precise
          (by decide : isDecimalDigit ',' = false)
        obtain ⟨second, afterSecond⟩ := span_digits [] scaled
          (by decide : isDecimalDigit ')' = false)
        refine ⟨precision ++ ',' :: (blanks ++ (digits ++ [')'])), blanks ++ (digits ++ [')']),
          afterKeyword?_eq_some_iff.mpr ⟨name ++ ['('], by simp, ?_⟩, ?_, afterFirst, ?_⟩
        · rw [List.map_append, letters]
          decide
        · rw [first]
          exact precise.1
        · rw [dropWhile_blanks spaced scaled]
          exact ⟨second, scaled.1, afterSecond⟩

theorem decimalScale_eq_some_iff {native : String} {result : Except NumberFault UInt32} :
    decimalScale native = some result ↔
      ∃ digits, DecimalName (trim native).toList digits ∧ readUInt32 digits = result := by
  rw [decimalScale, Option.map_eq_some_iff]
  simp only [scaleDigits?_eq_some_iff]

theorem decimalScale_eq_none_iff {native : String} :
    decimalScale native = none ↔ ∀ digits, ¬ DecimalName (trim native).toList digits := by
  rw [decimalScale, Option.map_eq_none_iff, Option.eq_none_iff_forall_ne_some]
  simp only [ne_eq, scaleDigits?_eq_some_iff]

theorem parseType_of_scale {native : String} {scale : UInt32}
    (read : decimalScale native = some (.ok scale)) (reported : ReportedPrecision) :
    duckDB.parseType native reported = .ok (.decimal scale) := by
  simp only [parseType, duckDB, read]

theorem parseType_of_fault {native : String} {fault : NumberFault}
    (read : decimalScale native = some (.error fault)) (reported : ReportedPrecision) :
    duckDB.parseType native reported = .error (.invalidScale native fault) := by
  simp only [parseType, duckDB, read]

theorem parseType_of_other {native : String} (other : decimalScale native = none)
    (reported : ReportedPrecision) :
    duckDB.parseType native reported = .ok (duckDB.typeByClass native reported) := by
  simp only [parseType, duckDB, other]

theorem exists_parseType_eq_error_iff {native : String} {reported : ReportedPrecision} :
    (∃ e, duckDB.parseType native reported = .error e ∧ e.kind = .type) ↔
      ∃ fault, decimalScale native = some (.error fault) := by
  constructor
  · intro refused
    obtain ⟨e, failed, -⟩ := refused
    rcases read : decimalScale native with _ | fault | scale
    · rw [parseType_of_other read] at failed
      cases failed
    · exact ⟨fault, rfl⟩
    · rw [parseType_of_scale read] at failed
      cases failed
  · intro found
    obtain ⟨fault, read⟩ := found
    exact ⟨_, parseType_of_fault read reported, rfl⟩

/-- A native type name is a decimal with its own scale, is refused for a scale that is no number of
32 bits, or is taken by its class; which of the three, its form alone decides. -/
theorem parseType_by_form (native : String) (reported : ReportedPrecision) :
    ∃ text, Trimmed native.toList text ∧
      (∀ scale,
        decimalScale native = some (.ok scale) ∧
            duckDB.parseType native reported = .ok (.decimal scale) ↔
          ∃ digits, DecimalName text digits ∧ (∀ c ∈ digits, c.isDigit = true) ∧
            Nat.ofDigitChars 10 digits 0 = scale.toNat) ∧
      ((∃ e, duckDB.parseType native reported = .error e ∧ e.kind = .type) ↔
        ∃ digits, DecimalName text digits ∧
          ((∃ c ∈ digits, c.isDigit = false) ∨ UInt32.size ≤ Nat.ofDigitChars 10 digits 0)) ∧
      ((∀ digits, ¬ DecimalName text digits) →
        duckDB.parseType native reported = .ok (duckDB.typeByClass native reported)) := by
  refine ⟨(trim native).toList, trimmed_trim native, ?_, ?_, ?_⟩
  · intro scale
    rw [and_iff_left_of_imp fun read => parseType_of_scale read reported, decimalScale_eq_some_iff]
    simp only [readUInt32_eq_ok_iff]
  · rw [exists_parseType_eq_error_iff]
    simp only [decimalScale_eq_some_iff, ← exists_readUInt32_eq_error_iff]
    constructor
    · intro found
      obtain ⟨fault, digits, form, read⟩ := found
      exact ⟨digits, form, fault, read⟩
    · intro found
      obtain ⟨digits, form, fault, read⟩ := found
      exact ⟨fault, digits, form, read⟩
  · intro none
    exact parseType_of_other (decimalScale_eq_none_iff.mpr none) reported

/-! The names of types. -/

theorem decimalName_baseName (precision : UInt32) :
    DecimalName (SemanticType.decimal precision).baseName.toList
      (Nat.toDigits 10 precision.toNat) := by
  have digits : IsNumber (Nat.toDigits 10 precision.toNat) := by
    refine ⟨Nat.toDigits_ne_nil, ?_⟩
    intro c listed
    exact isDecimalDigit_of_isDigit (Nat.isDigit_of_mem_toDigits (by decide) (by decide) listed)
  have form : DecimalName ("DECIMAL".toList ++ '(' :: ("38".toList ++ ',' ::
      (" ".toList ++ (Nat.toDigits 10 precision.toNat ++ [')'])))) _ :=
    .mk ((map_toUpper_eq_iff (by decide)).mp (by decide))
      ⟨by decide, List.all_eq_true.mp (by decide)⟩
      (List.all_eq_true.mp (by decide)) digits
  have written : (SemanticType.decimal precision).baseName.toList = "DECIMAL".toList ++ '(' ::
      ("38".toList ++ ',' :: (" ".toList ++ (Nat.toDigits 10 precision.toNat ++ [')']))) := by
    simp [SemanticType.baseName, String.toList_append]
  rwa [written]

theorem parseType_decimal (precision : UInt32) (reported : ReportedPrecision) :
    duckDB.parseType (duckDB.typeName (.decimal precision)) reported =
      .ok (.decimal precision) := by
  have trimmed : trim (SemanticType.decimal precision).baseName =
      (SemanticType.decimal precision).baseName := by
    apply trim_of_ends
    · intro c first
      simp only [SemanticType.baseName, String.toList_append, List.append_assoc] at first
      cases first
      decide
    · intro c last
      simp only [SemanticType.baseName, String.toList_append] at last
      rw [List.getLast?_append] at last
      cases last
      decide
  change duckDB.parseType (SemanticType.decimal precision).baseName reported = _
  apply parseType_of_scale
  refine decimalScale_eq_some_iff.mpr ⟨Nat.toDigits 10 precision.toNat, ?_, ?_⟩
  · rw [trimmed]
    exact decimalName_baseName precision
  · refine readUInt32_eq_ok_iff.mpr ⟨?_, Nat.ofDigitChars_ten_toDigits⟩
    intro c listed
    exact Nat.isDigit_of_mem_toDigits (by decide) (by decide) listed

theorem parseType_of_class (name : String) {typeClass : TypeClass}
    (other : decimalScale name = none) (found : DuckDB.typeClass (trim name) = some typeClass)
    (reported : ReportedPrecision) :
    duckDB.parseType name reported = .ok (typeClass.toType false floatDigits reported) := by
  rw [parseType_of_other other]
  simp only [typeByClass, duckDB, found]

/-- The name of a class of types is read as that class. -/
theorem parseType_className (typeClass : TypeClass) (reported : ReportedPrecision) :
    duckDB.parseType (duckDB.typeName (typeClass.toType false floatDigits reported)) reported =
      .ok (typeClass.toType false floatDigits reported) := by
  cases typeClass with
  | decimal => exact parseType_decimal _ reported
  | timestamp => exact parseType_of_class "TIMESTAMP" (by decide) (by decide +kernel) reported
  | timestampTz =>
      exact parseType_of_class "TIMESTAMP WITH TIME ZONE" (by decide) (by decide +kernel) reported
  | float => exact parseType_of_class "DOUBLE" (by decide) (by decide +kernel) reported
  | integer => exact parseType_of_class "BIGINT" (by decide) (by decide +kernel) reported
  | text => exact parseType_of_class "VARCHAR" (by decide) (by decide +kernel) reported
  | nativeUuid => exact parseType_of_class "UUID" (by decide) (by decide +kernel) reported
  | boolean => exact parseType_of_class "BOOLEAN" (by decide) (by decide +kernel) reported

/-- The name of the type that a native name stands for is read as that type again. -/
theorem typeName_reads_back (reported : ReportedPrecision) :
    (∀ native type, duckDB.parseType native reported = .ok type →
      duckDB.parseType (duckDB.typeName type) reported = .ok type) ∧
    ∀ precision : UInt32,
      duckDB.typeName (.decimal precision) = "DECIMAL(38, " ++ toString precision.toNat ++ ")" ∧
        duckDB.parseType (duckDB.typeName (.decimal precision)) reported =
          .ok (.decimal precision) := by
  constructor
  · intro native type parsed
    rcases read : decimalScale native with _ | fault | scale
    · rw [parseType_of_other read] at parsed
      cases found : DuckDB.typeClass (trim native) with
      | some typeClass =>
          have byClass : duckDB.typeByClass native reported =
              typeClass.toType false floatDigits reported := by
            simp only [typeByClass, duckDB, found]
          rw [byClass] at parsed
          cases parsed
          exact parseType_className typeClass reported
      | none =>
          have kept : duckDB.typeByClass native reported = .unknown native := by
            simp only [typeByClass, duckDB, found]
          rw [kept] at parsed
          cases parsed
          -- a name without a class is its own type's name
          exact (parseType_of_other read reported).trans (congrArg Except.ok kept)
    · rw [parseType_of_fault read] at parsed
      cases parsed
    · rw [parseType_of_scale read] at parsed
      cases parsed
      exact parseType_decimal scale reported
  · intro precision
    exact ⟨rfl, parseType_decimal precision reported⟩

theorem typeName_reads_back_of_largest :
    duckDB.parseType " decimal(\u0663\u0668,\t04294967295) " {} = .ok (.decimal 4294967295) ∧
      duckDB.parseType (duckDB.typeName (.decimal 4294967295)) {} = .ok (.decimal 4294967295) := by
  have parsed : duckDB.parseType " decimal(\u0663\u0668,\t04294967295) " {} =
      .ok (.decimal 4294967295) := by
    rfl
  exact ⟨parsed, (typeName_reads_back {}).1 _ _ parsed⟩

end Dialect.DuckDB

end SqlQuery
