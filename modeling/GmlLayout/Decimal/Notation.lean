import GmlLayout.Decimal.Shortest

/-!
Text of floating-point numbers. Numbers from a ten-thousandth up to ten to the sixteenth are written
with a point and at least one digit on each side of it; the others with an exponent of at least two
digits.
-/

namespace GmlLayout.Decimal

namespace Scientific

def digitList (decimal : Scientific) : List Char :=
  Nat.toDigits 10 decimal.digits

/-- The exponent of the leading digit. -/
def leading (decimal : Scientific) : Int :=
  decimal.exponent + decimal.digitList.length - 1

def positional (decimal : Scientific) : List Char :=
  let digits := decimal.digitList
  if 0 ≤ decimal.exponent then
    digits ++ List.replicate decimal.exponent.toNat '0' ++ ['.', '0']
  else if 0 ≤ decimal.leading then
    digits.take (decimal.leading.toNat + 1) ++ '.' :: digits.drop (decimal.leading.toNat + 1)
  else
    '0' :: '.' :: (List.replicate (-decimal.leading - 1).toNat '0' ++ digits)

def exponentText (exponent : Int) : List Char :=
  let digits := Nat.toDigits 10 exponent.natAbs
  (if exponent < 0 then '-' else '+') :: (if digits.length < 2 then '0' :: digits else digits)

def exponential (decimal : Scientific) : List Char :=
  match decimal.digitList with
  | [] => []
  | [only] => only :: 'e' :: exponentText decimal.leading
  | first :: others => first :: '.' :: (others ++ 'e' :: exponentText decimal.leading)

def text (decimal : Scientific) : List Char :=
  if -4 ≤ decimal.leading ∧ decimal.leading < 16 then decimal.positional else decimal.exponential

end Scientific

/-- A double by its bits: sign, exponent field and fraction field. -/
structure Fields where
  negative : Bool
  exponent : Nat
  fraction : Nat

namespace Fields

def fractionSize : Nat := 0x10000000000000

def signBit : Nat := 0x8000000000000000

def ofBits (bits : UInt64) : Fields where
  negative := signBit ≤ bits.toNat
  exponent := bits.toNat / fractionSize % 2048
  fraction := bits.toNat % fractionSize

def interval (fields : Fields) : Interval :=
  if fields.exponent = 0 then .ofBinary fields.fraction (-1074) false
  else .ofBinary (fractionSize + fields.fraction) (fields.exponent - 1075)
    (fields.fraction = 0 && fields.exponent != 1)

def magnitude (fields : Fields) : List Char :=
  if fields.exponent = 2047 then "inf".toList
  else if fields.exponent = 0 ∧ fields.fraction = 0 then "0.0".toList
  else (shortest fields.interval).text

def text (fields : Fields) : String :=
  if fields.exponent = 2047 ∧ fields.fraction ≠ 0 then "nan"
  else String.ofList (if fields.negative then '-' :: fields.magnitude else fields.magnitude)

end Fields

def ofFloat (number : Float) : String :=
  (Fields.ofBits number.toBits).text

end GmlLayout.Decimal
