/-! Binary64 numbers as exact values: what the bits of a float stand for, and the float nearest to a
quotient. All arithmetic is on natural numbers. -/
namespace ScanService.Decimal

/-- A finite value: `mantissa * 2 ^ exponent`, negated if `negative`. -/
structure Dyadic where
  negative : Bool
  mantissa : Nat
  exponent : Int
deriving DecidableEq, Repr

inductive Shape
  | nan
  | infinite (negative : Bool)
  | finite (x : Dyadic)
deriving DecidableEq, Repr

def Shape.ofBits (bits : Nat) : Shape :=
  let negative := decide (0x8000000000000000 ≤ bits)
  let e : Nat := bits / 0x10000000000000 % 2048
  let f : Nat := bits % 0x10000000000000
  if e = 2047 then if f = 0 then .infinite negative else .nan
  else if e = 0 then .finite ⟨negative,f,-1074⟩
  else .finite ⟨negative,f + 0x10000000000000,(e : Int) - 1075⟩

def Shape.of (x : Float) : Shape := Shape.ofBits x.toBits.toNat

def scaled (num den : Nat) (e : Int) : Nat × Nat :=
  if 0 ≤ e then (num * Nat.pow 2 e.toNat,den) else (num,den * Nat.pow 2 (-e).toNat)

/-- The integer nearest to `num / den`; a half goes to the even neighbour. -/
def roundDiv (num den : Nat) : Nat :=
  let q := num / den
  let r := num % den
  if 2 * r < den then q else if den < 2 * r then q + 1 else q + q % 2

/-- The bits of the value nearest to `num / den`, a tie going to the even mantissa; infinity from
the middle between the greatest finite value and the next step on. -/
def nearestBits (negative : Bool) (num den : Nat) : Nat :=
  let sign := if negative then 0x8000000000000000 else 0
  if num = 0 ∨ den = 0 then sign
  else
    let e₀ : Int := (num.log2 : Int) - den.log2 - 52
    let s := scaled num den (-e₀)
    let e := max (-1074) (if s.1 / s.2 < 0x10000000000000 then e₀ - 1 else e₀)
    let t := scaled num den (-e)
    let m := roundDiv t.1 t.2
    let bits := (e + 1074).toNat * 0x10000000000000 + m
    sign + (if 2047 * 0x10000000000000 ≤ bits then 2047 * 0x10000000000000 else bits)

def nearest (negative : Bool) (num den : Nat) : Float :=
  Float.ofBits (UInt64.ofNat (nearestBits negative num den))

def ofInt (i : Int) : Float := nearest (decide (i < 0)) i.natAbs 1

end ScanService.Decimal
