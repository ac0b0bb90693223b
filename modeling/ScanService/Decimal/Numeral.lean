import ScanService.Decimal.Binary
import ScanService.Text.Radix
/-! Reading a float from text: an optional sign, then `inf`, `infinity` or `nan` in any case, or
digits with at most one point, at least one digit in all, and an optional exponent. The value is the
float nearest to the number written. -/
namespace ScanService.Decimal

/-- A number as written: `digits * 10 ^ exponent`. -/
structure Numeral where
  negative : Bool
  digits : Nat
  exponent : Int
deriving DecidableEq, Repr

/-- The float nearest to the number. Exponents far outside the range of floats are not multiplied
out. -/
def Numeral.toFloat (n : Numeral) : Float :=
  let size : Int := n.digits.log2 / 3 + n.exponent
  if n.digits = 0 then nearest n.negative 0 1
  else if 400 < size then nearest n.negative (Nat.pow 2 1100) 1
  else if size + n.digits.log2 < -800 then nearest n.negative 0 1
  else if 0 ≤ n.exponent then nearest n.negative (n.digits * Nat.pow 10 n.exponent.toNat) 1
  else nearest n.negative n.digits (Nat.pow 10 (-n.exponent).toNat)

inductive NumeralError
  | empty
  | invalid
deriving DecidableEq, Repr

def NumeralError.message : NumeralError → String
  | .empty => "cannot parse float from empty string"
  | .invalid => "invalid float literal"

def splitSign : List Char → Bool × List Char
  | '-' :: r => (true,r)
  | '+' :: r => (false,r)
  | r => (false,r)

/-- The exponent part: empty, or `e` with an optional sign and digits. -/
def readExponent : List Char → Option Int
  | [] => some 0
  | c :: r =>
    if c = 'e' ∨ c = 'E' then
      let s := splitSign r
      (Text.Radix.read 10 s.2).map fun n => if s.1 then -(n : Int) else n
    else none

def readNumeral (negative : Bool) (cs : List Char) : Option Numeral :=
  let whole := cs.takeWhile Char.isDigit
  let rest := cs.dropWhile Char.isDigit
  let places := match rest with
    | '.' :: r => r.takeWhile Char.isDigit
    | _ => []
  let tail := match rest with
    | '.' :: r => r.dropWhile Char.isDigit
    | r => r
  match Text.Radix.read 10 (whole ++ places), readExponent tail with
  | some digits, some e => some ⟨negative,digits,e - places.length⟩
  | _, _ => none

def readFloat (cs : List Char) : Except NumeralError Float :=
  if cs.isEmpty then .error .empty
  else
    let s := splitSign cs
    let word := s.2.map Char.toLower
    if word = "inf".toList ∨ word = "infinity".toList then
      .ok (nearest s.1 (Nat.pow 2 1100) 1)
    else if word = "nan".toList then .ok (0.0 / 0.0)
    else match readNumeral s.1 s.2 with
      | some n => .ok n.toFloat
      | none => .error .invalid

end ScanService.Decimal
