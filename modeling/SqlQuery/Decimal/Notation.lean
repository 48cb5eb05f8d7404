import SqlQuery.Decimal.Shortest

/-!
Two notations of a positive decimal: all digits around a decimal point, and one digit before the
point with a power of ten.
-/

namespace SqlQuery.Decimal

def zeros (n : Nat) : String :=
  .ofList (List.replicate n '0')

namespace Digits

def significant (d : Digits) : List Char :=
  ((Nat.toDigits 10 d.significand).reverse.dropWhile (· == '0')).reverse

/-- The `p` with `10 ^ (p - 1) ≤ d < 10 ^ p`. -/
def magnitude (d : Digits) : Int :=
  digitCount d.significand + d.exponent

/-- Digits around a decimal point, which is left out of a whole number. -/
def positional (d : Digits) : String :=
  let digits := d.significant
  let whole := d.magnitude
  if whole ≤ 0 then
    "0." ++ zeros (-whole).toNat ++ .ofList digits
  else if digits.length ≤ whole.toNat then
    .ofList digits ++ zeros (whole.toNat - digits.length)
  else
    .ofList (digits.take whole.toNat) ++ "." ++ .ofList (digits.drop whole.toNat)

/-- One digit, the others after a point, and the power of ten. -/
def scientific (d : Digits) : String :=
  let digits := d.significant
  .ofList (digits.take 1) ++ (if digits.length ≤ 1 then "" else ".") ++
    .ofList (digits.drop 1) ++ "e" ++ toString (d.magnitude - 1)

end Digits

end SqlQuery.Decimal
