import SqlQuery.Decimal.Notation

/-!
Floating-point numbers by their bits: what the bits of a binary format say, the widening of the
32-bit format to the 64-bit one, and the two texts of a number.
-/

namespace SqlQuery

structure BinaryFormat where
  exponentBits : Nat
  fractionBits : Nat

namespace BinaryFormat

def single : BinaryFormat := ⟨8, 23⟩

def double : BinaryFormat := ⟨11, 52⟩

inductive Magnitude where
  | zero
  | finite (value : Decimal.Dyadic)
  | infinite
  | notANumber
  deriving DecidableEq, Repr

def isNegative (format : BinaryFormat) (bits : Nat) : Bool :=
  bits / Nat.pow 2 (format.exponentBits + format.fractionBits) % 2 == 1

def fraction (format : BinaryFormat) (bits : Nat) : Nat :=
  bits % Nat.pow 2 format.fractionBits

def biasedExponent (format : BinaryFormat) (bits : Nat) : Nat :=
  bits / Nat.pow 2 format.fractionBits % Nat.pow 2 format.exponentBits

def pack (format : BinaryFormat) (exponent fraction : Nat) : Nat :=
  exponent * Nat.pow 2 format.fractionBits + fraction

/-- The exponent of the last bit of the smallest normal numbers. -/
def leastExponent (format : BinaryFormat) : Int :=
  2 - (Nat.pow 2 (format.exponentBits - 1) : Int) - (format.fractionBits : Int)

def magnitude (format : BinaryFormat) (bits : Nat) : Magnitude :=
  let exponent := format.biasedExponent bits
  let fraction := format.fraction bits
  if exponent == Nat.pow 2 format.exponentBits - 1 then
    if fraction == 0 then .infinite else .notANumber
  else if exponent == 0 then
    if fraction == 0 then .zero else .finite ⟨fraction, format.leastExponent, false⟩
  else
    .finite
      ⟨Nat.pow 2 format.fractionBits + fraction, format.leastExponent + (exponent - 1 : Nat),
        fraction == 0 && exponent != 1⟩

/-- The number as a literal of a query: never a power of ten, no point in a whole number. -/
def literal (format : BinaryFormat) (bits : Nat) : String :=
  let sign := if format.isNegative bits then "-" else ""
  match format.magnitude bits with
  | .notANumber => "NaN"
  | .infinite => sign ++ "inf"
  | .zero => sign ++ "0"
  | .finite value => sign ++ value.shortest.positional

/-- The number as descriptions show it: a whole number ends in `.0`, and a number below 10^-4 or
from 10^16 on has a power of ten. -/
def described (format : BinaryFormat) (bits : Nat) : String :=
  let sign := if format.isNegative bits then "-" else ""
  match format.magnitude bits with
  | .notANumber => "NaN"
  | .infinite => sign ++ "inf"
  | .zero => sign ++ "0.0"
  | .finite value =>
      let digits := value.shortest
      if digits.magnitude ≤ -4 ∨ 17 ≤ digits.magnitude then
        sign ++ digits.scientific
      else if (digits.significant.length : Int) ≤ digits.magnitude then
        sign ++ digits.positional ++ ".0"
      else
        sign ++ digits.positional

end BinaryFormat

/-- A floating-point number of 64 bits. Two numbers are equal when their bits are. -/
structure Binary64 where
  bits : UInt64
  deriving DecidableEq, Repr

namespace Binary64

def widening : Nat := 0x20000000

/-- The first bit of the fraction of a NaN that signals nothing. -/
def quietBit : Nat := 0x8000000000000

def literal (x : Binary64) : String :=
  BinaryFormat.double.literal x.bits.toNat

/-- The same number as one of 32 bits; a signalling NaN becomes a quiet one. -/
def ofSingleBits (bits : UInt32) : Binary64 :=
  let single := BinaryFormat.single
  let double := BinaryFormat.double
  let sign := if single.isNegative bits.toNat then 0x8000000000000000 else 0
  let exponent := single.biasedExponent bits.toNat
  let fraction := single.fraction bits.toNat
  let rest :=
    if exponent == 255 then
      double.pack 2047
        (if fraction == 0 then 0 else quietBit + fraction % 0x400000 * widening)
    else if exponent == 0 then
      if fraction == 0 then 0
      else
        let top := fraction.log2
        double.pack (top + 874) ((fraction - Nat.pow 2 top) * Nat.pow 2 (52 - top))
    else
      double.pack (exponent + 896) (fraction * widening)
  ⟨.ofNat (sign + rest)⟩

end Binary64

end SqlQuery
