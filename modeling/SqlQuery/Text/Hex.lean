/-!
Hexadecimal text: numbers and bytes written with lower-case digits, and read with digits of either
case.
-/

namespace SqlQuery.Text

/-- Lower-case hexadecimal digits of a number, at least one. -/
def hexDigits (n : Nat) : String :=
  .ofList (Nat.toDigits 16 n)

def hexPadded (width n : Nat) : String :=
  let digits := Nat.toDigits 16 n
  .ofList (List.replicate (width - digits.length) '0' ++ digits)

def hexOfBytes (bytes : List UInt8) : String :=
  String.join (bytes.map fun byte => hexPadded 2 byte.toNat)

def hexValue? (c : Char) : Option Nat :=
  if '0' ≤ c ∧ c ≤ '9' then some (c.toNat - '0'.toNat)
  else if 'a' ≤ c ∧ c ≤ 'f' then some (c.toNat - 'a'.toNat + 10)
  else if 'A' ≤ c ∧ c ≤ 'F' then some (c.toNat - 'A'.toNat + 10)
  else none

/-- The number of exactly so many digits. -/
def readHex? (width : Nat) (text : String) : Option Nat := do
  let digits ← text.toList.mapM hexValue?
  if digits.length = width then
    some (digits.foldl (fun n digit => 16 * n + digit) 0)
  else
    none

def bytesOfDigits? : List Char → Option (List UInt8)
  | [] => some []
  | [_] => none
  | high :: low :: rest => do
      let byte := 16 * (← hexValue? high) + (← hexValue? low)
      return .ofNat byte :: (← bytesOfDigits? rest)

def bytesOfHex? (text : String) : Option (List UInt8) :=
  bytesOfDigits? text.toList

end SqlQuery.Text
