import SqlQuery.Dialect.DuckDB
import SqlQuery.Proofs.Text.Separated
import SqlQuery.Text.Hex

/-!
Literals read back. The first character tells what kind of literal it is, and a literal ends where
a blank, a comma, a closing parenthesis or nothing follows.
-/

namespace SqlQuery

namespace Text

/-! Numbers. -/

def readNat (input : List Char) : Option (Nat × List Char) :=
  (readDigits? (input.takeWhile Char.isDigit)).map (·, input.dropWhile Char.isDigit)

def readInt : List Char → Option (Int × List Char)
  | [] => none
  | c :: rest =>
      if c = '-' then (readNat rest).map fun (n, rest) => (-n, rest)
      else (readNat (c :: rest)).map fun (n, rest) => (n, rest)

theorem readDigits?_toDigits (n : Nat) : readDigits? (Nat.toDigits 10 n) = some n := by
  have digits : (Nat.toDigits 10 n).all Char.isDigit = true :=
    List.all_eq_true.mpr fun c listed => Nat.isDigit_of_mem_toDigits (by decide) (by decide) listed
  have some : (Nat.toDigits 10 n).isEmpty = false :=
    List.isEmpty_eq_false_iff.mpr Nat.toDigits_ne_nil
  have value := Nat.ofDigitChars_ten_toDigits (n := n)
  rw [Nat.ofDigitChars_eq_foldl] at value
  rw [readDigits?, digits, some, value]
  rfl

theorem takeWhile_isDigit_of_ends {rest : List Char} (ended : Ends rest) :
    rest.takeWhile Char.isDigit = [] ∧ rest.dropWhile Char.isDigit = rest := by
  cases rest with
  | nil => exact ⟨rfl, rfl⟩
  | cons c rest =>
      rcases ended c rfl with rfl | rfl | rfl
      · exact ⟨rfl, rfl⟩
      · exact ⟨rfl, rfl⟩
      · exact ⟨rfl, rfl⟩

theorem readNat_toDigits (n : Nat) {rest : List Char} (ended : Ends rest) :
    readNat (Nat.toDigits 10 n ++ rest) = some (n, rest) := by
  have digits : ∀ c ∈ Nat.toDigits 10 n, c.isDigit = true :=
    fun c listed => Nat.isDigit_of_mem_toDigits (by decide) (by decide) listed
  obtain ⟨none, all⟩ := takeWhile_isDigit_of_ends ended
  rw [readNat, List.takeWhile_append_of_pos digits, List.dropWhile_append_of_pos digits, none, all,
    List.append_nil, readDigits?_toDigits]
  rfl

/-- The digits of a number start with a digit. -/
theorem toDigits_eq_cons (n : Nat) :
    ∃ c digits, Nat.toDigits 10 n = c :: digits ∧ c.isDigit = true := by
  cases written : Nat.toDigits 10 n with
  | nil => exact absurd written Nat.toDigits_ne_nil
  | cons c digits =>
      refine ⟨c, digits, rfl, Nat.isDigit_of_mem_toDigits (b := 10) (n := n) ?_ ?_ ?_⟩
      · decide
      · decide
      · rw [written]
        exact List.mem_cons_self

theorem toList_toString_ofNat (n : Nat) : (toString (n : Int)).toList = Nat.toDigits 10 n := by
  change (toString n).toList = _
  rw [Nat.toString_eq_ofList_toDigits, String.toList_ofList]

theorem toList_toString_negSucc (n : Nat) :
    (toString (Int.negSucc n)).toList = '-' :: Nat.toDigits 10 (n + 1) := by
  change ("-" ++ toString (n + 1)).toList = _
  rw [String.toList_append, Nat.toString_eq_ofList_toDigits]
  exact congrArg ('-' :: ·) String.toList_ofList

theorem toString_start (n : Int) :
    ∃ c rest, (toString n).toList = c :: rest ∧ (c = '-' ∨ c.isDigit = true) := by
  cases n with
  | ofNat m =>
      obtain ⟨c, digits, written, isDigit⟩ := toDigits_eq_cons m
      exact ⟨c, digits, (toList_toString_ofNat m).trans written, .inr isDigit⟩
  | negSucc m => exact ⟨'-', _, toList_toString_negSucc m, .inl rfl⟩

theorem readInt_toString (n : Int) {rest : List Char} (ended : Ends rest) :
    readInt ((toString n).toList ++ rest) = some (n, rest) := by
  cases n with
  | ofNat n =>
      change readInt ((toString (n : Int)).toList ++ rest) = _
      obtain ⟨c, digits, written, isDigit⟩ := toDigits_eq_cons n
      have read := readNat_toDigits n ended
      have other : c ≠ '-' := by
        rintro rfl
        cases isDigit
      rw [toList_toString_ofNat, written, List.cons_append]
      rw [written, List.cons_append] at read
      simp [readInt, other, read]
  | negSucc n =>
      rw [toList_toString_negSucc, List.cons_append]
      simp only [readInt, if_true, readNat_toDigits (n + 1) ended]
      rfl

/-! Bytes. -/

theorem hexByte_toList (byte : UInt8) :
    ∃ high low, (hexByte byte).toList = [high, low] ∧
      hexValue? high = some (byte.toNat / 16) ∧ hexValue? low = some (byte.toNat % 16) := by
  have digit : ∀ n : Fin 16, hexValue? (if n.val < 10 then .ofNat ('0'.toNat + n)
      else .ofNat ('A'.toNat + (n - 10))) = some n.val := by decide
  have bound := byte.toNat_lt
  refine ⟨_, _, String.toList_ofList, ?_, ?_⟩
  · exact digit ⟨byte.toNat / 16, by omega⟩
  · exact digit ⟨byte.toNat % 16, by omega⟩

theorem ne_quote_of_hexValue? {c : Char} {n : Nat} (value : hexValue? c = some n) : c ≠ '\'' := by
  rintro rfl
  cases value

theorem bytesOfDigits?_hexByte (byte : UInt8) (rest : List Char) :
    bytesOfDigits? ((hexByte byte).toList ++ rest) = (bytesOfDigits? rest).map (byte :: ·) := by
  obtain ⟨high, low, written, highValue, lowValue⟩ := hexByte_toList byte
  have value : UInt8.ofNat (16 * (byte.toNat / 16) + byte.toNat % 16) = byte := by
    rw [Nat.div_add_mod, UInt8.ofNat_toNat]
  rw [written]
  simp only [List.cons_append, List.nil_append, bytesOfDigits?, highValue, lowValue,
    Option.bind_eq_bind, Option.bind_some, value]
  cases bytesOfDigits? rest <;> rfl

def hexText (bytes : List UInt8) : List Char :=
  bytes.flatMap fun byte => (hexByte byte).toList

theorem bytesOfDigits?_hexText (bytes : List UInt8) :
    bytesOfDigits? (hexText bytes) = some bytes := by
  induction bytes with
  | nil => rfl
  | cons byte bytes ih =>
      rw [hexText, List.flatMap_cons, bytesOfDigits?_hexByte]
      change (bytesOfDigits? (hexText bytes)).map _ = _
      rw [ih]
      rfl

/-- The digits of a text of hexadecimal escapes. -/
def escapedDigits? : List Char → Option (List Char)
  | [] => some []
  | '\\' :: 'x' :: high :: low :: rest => (escapedDigits? rest).map ([high, low] ++ ·)
  | _ => none

def escapedText (bytes : List UInt8) : List Char :=
  bytes.flatMap fun byte => '\\' :: 'x' :: (hexByte byte).toList

theorem escapedDigits?_escapedText (bytes : List UInt8) :
    escapedDigits? (escapedText bytes) = some (hexText bytes) := by
  induction bytes with
  | nil => rfl
  | cons byte bytes ih =>
      obtain ⟨high, low, written, _⟩ := hexByte_toList byte
      rw [escapedText, hexText, List.flatMap_cons, List.flatMap_cons, written]
      change (escapedDigits? (escapedText bytes)).map ([high, low] ++ ·) = _
      rw [ih]
      rfl

theorem quote_not_mem_hexText (bytes : List UInt8) : '\'' ∉ hexText bytes := by
  intro listed
  obtain ⟨byte, _, inside⟩ := List.mem_flatMap.mp listed
  obtain ⟨high, low, written, highValue, lowValue⟩ := hexByte_toList byte
  rw [written] at inside
  rcases List.mem_pair.mp inside with same | same
  · exact ne_quote_of_hexValue? highValue same.symm
  · exact ne_quote_of_hexValue? lowValue same.symm

theorem quote_not_mem_escapedText (bytes : List UInt8) : '\'' ∉ escapedText bytes := by
  intro listed
  obtain ⟨byte, present, inside⟩ := List.mem_flatMap.mp listed
  have digits : '\'' ∈ (hexByte byte).toList := by simpa using inside
  exact quote_not_mem_hexText bytes (List.mem_flatMap.mpr ⟨byte, present, digits⟩)

end Text

open Text

/-! Literals. -/

def Value.keywords : List (String × Value) :=
  [("NULL", .null), ("TRUE", .bool true), ("FALSE", .bool false)]

def readKeyword (input : List Char) : Option (Value × List Char) :=
  Value.keywords.findSome? fun (keyword, v) => (input.dropPrefix? keyword.toList).map (v, ·)

/-- Text, or the escapes of bytes if it is cast to them. -/
def readText (input : List Char) : Option (Value × List Char) := do
  let (text, rest) ← readQuoted '\'' input
  match rest.dropPrefix? "::BLOB".toList with
  | some rest => return (.bytes (← (escapedDigits? text).bind bytesOfDigits?), rest)
  | none => return (.text (.ofList text), rest)

def readHex (input : List Char) : Option (Value × List Char) := do
  let (digits, rest) ← readQuoted '\'' input
  return (.bytes (← bytesOfDigits? digits), rest)

def readLiteral : List Char → Option (Value × List Char)
  | [] => none
  | c :: rest =>
      if c = '\'' then readText (c :: rest)
      else if c = 'X' then readHex rest
      else if c = '-' ∨ c.isDigit then
        (readInt (c :: rest)).map fun (n, rest) => (.int (.ofInt n), rest)
      else readKeyword (c :: rest)

/-- Values other than floating-point numbers, points in time and bytes. -/
def Value.isBasic : Value → Bool
  | .float _ => false
  | .timestamp _ => false
  | .bytes _ => false
  | _ => true

theorem readLiteral_text (text : String) {rest : List Char} (ended : Ends rest) :
    readLiteral ((Dialect.textLiteral text).toList ++ rest) = some (.text text, rest) := by
  have written : (Dialect.textLiteral text).toList ++ rest =
      '\'' :: (doubled '\'' text.toList ++ '\'' :: rest) := by
    simp only [Dialect.textLiteral, String.toList_append, String.toList_ofList, List.append_assoc]
    rfl
  have read := upToMark_doubled '\'' text.toList (ended.head_ne (c := '\'') (by decide))
  have uncast : rest.dropPrefix? "::BLOB".toList = none := by
    cases rest with
    | nil => rfl
    | cons c rest => rcases ended c rfl with rfl | rfl | rfl <;> rfl
  rw [written]
  simp only [readLiteral, if_true, readText, readQuoted_cons, read, Option.bind_eq_bind,
    Option.bind_some, uncast, String.ofList_toList]
  rfl

theorem readLiteral_int (n : Int64) {rest : List Char} (ended : Ends rest) :
    readLiteral ((toString n.toInt).toList ++ rest) = some (.int n, rest) := by
  have read := readInt_toString n.toInt ended
  obtain ⟨c, digits, written, start⟩ := toString_start n.toInt
  have notText : c ≠ '\'' := by
    rintro rfl
    rcases start with start | start <;> cases start
  have notHex : c ≠ 'X' := by
    rintro rfl
    rcases start with start | start <;> cases start
  rw [written, List.cons_append] at read ⊢
  simp only [readLiteral, if_neg notText, if_neg notHex, if_pos start, read, Option.map_some,
    Int64.ofInt_toInt]

theorem readLiteral_basic (timestamp : Timestamp → String) (bytes : List UInt8 → String)
    {v : Value} (basic : v.isBasic = true) {rest : List Char} (ended : Ends rest) :
    readLiteral ((Dialect.literalText timestamp bytes v).toList ++ rest) = some (v, rest) := by
  cases v with
  | null =>
      simp [Dialect.literalText, readLiteral, readKeyword, Value.keywords, List.dropPrefix?]
  | bool b =>
      cases b <;>
        simp [Dialect.literalText, readLiteral, readKeyword, Value.keywords, List.dropPrefix?]
  | int n => exact readLiteral_int n ended
  | text s => exact readLiteral_text s ended
  | float x => cases basic
  | timestamp t => cases basic
  | bytes b => cases basic

/-- Bytes are written in one of the two known forms. -/
def Dialect.WritesBytes (d : Dialect) : Prop :=
  d.bytesLiteral = hexBytes ∨ d.bytesLiteral = DuckDB.bytesLiteral

theorem readLiteral_hexBytes (bytes : List UInt8) {rest : List Char} (ended : Ends rest) :
    readLiteral ((hexBytes bytes).toList ++ rest) = some (.bytes bytes, rest) := by
  have written : (hexBytes bytes).toList ++ rest =
      'X' :: '\'' :: (doubled '\'' (hexText bytes) ++ '\'' :: rest) := by
    rw [doubled_of_not_mem (quote_not_mem_hexText bytes)]
    simp [hexBytes, hexText, String.toList_append, String.toList_join, List.flatMap_map]
  have read := upToMark_doubled '\'' (hexText bytes) (ended.head_ne (c := '\'') (by decide))
  rw [written]
  simp [readLiteral, readHex, readQuoted_cons, read, bytesOfDigits?_hexText]

theorem readLiteral_escapedBytes (bytes : List UInt8) (rest : List Char) :
    readLiteral ((Dialect.DuckDB.bytesLiteral bytes).toList ++ rest) =
      some (.bytes bytes, rest) := by
  let after := "::BLOB".toList ++ rest
  have written : (Dialect.DuckDB.bytesLiteral bytes).toList ++ rest =
      '\'' :: (doubled '\'' (escapedText bytes) ++ '\'' :: after) := by
    rw [doubled_of_not_mem (quote_not_mem_escapedText bytes)]
    simp [Dialect.DuckDB.bytesLiteral, escapedText, after, String.toList_append,
      String.toList_join, List.flatMap_map]
  have read : upToMark '\'' (doubled '\'' (escapedText bytes) ++ '\'' :: after) =
      some (escapedText bytes, after) := upToMark_doubled _ _ nofun
  have cast : after.dropPrefix? "::BLOB".toList = some rest :=
    List.dropPrefix?_append_of_beq rest (by decide)
  rw [written]
  simp only [readLiteral, if_true, readText, readQuoted_cons, read, Option.bind_eq_bind,
    Option.bind_some, cast, escapedDigits?_escapedText, bytesOfDigits?_hexText]
  rfl

theorem readLiteral_bytes {d : Dialect} (known : d.WritesBytes) (bytes : List UInt8)
    {rest : List Char} (ended : Ends rest) :
    readLiteral ((d.bytesLiteral bytes).toList ++ rest) = some (.bytes bytes, rest) := by
  rcases known with form | form
  · rw [form]
    exact readLiteral_hexBytes bytes ended
  · rw [form]
    exact readLiteral_escapedBytes bytes rest

end SqlQuery
