import ScanService.Decimal.Binary
/-! The shortest decimal that reads back as a given finite value, and among those of that length the
nearest one. Grids of one, two, … digits are tried in turn; on each, only the two neighbours of the
value can lie in the interval of reals that round to it. -/
namespace ScanService.Decimal

structure Expansion where
  digits : Nat
  exponent : Int
deriving DecidableEq, Repr

/-- `num * 10 ^ p / den` as numerator and denominator. -/
def scaled10 (num den : Nat) (p : Int) : Nat × Nat :=
  if 0 ≤ p then (num * Nat.pow 10 p.toNat,den) else (num,den * Nat.pow 10 (-p).toNat)

/-- The quarters of a unit in the last place between which reals round to the value: the gap below a
power of two is half as wide. -/
def quarters (x : Dyadic) : Nat × Nat :=
  (if x.mantissa = 0x10000000000000 ∧
    -1074 < x.exponent then 4 * x.mantissa - 1 else 4 * x.mantissa - 2,4 * x.mantissa + 2)

def readsBack (x : Dyadic) (c : Nat) (p : Int) : Bool :=
  let ten := scaled10 c 1 p
  let t := scaled ten.1 ten.2 (2 - x.exponent)
  let b := quarters x
  if x.mantissa % 2 = 0 then b.1 * t.2 ≤ t.1 && t.1 ≤ b.2 * t.2
  else b.1 * t.2 < t.1 && t.1 < b.2 * t.2

def width (n : Nat) : Nat := if n < 10 then 1 else width (n / 10) + 1
termination_by n

/-- The exponent of the leading decimal digit of `num / den`. -/
def leading (num den : Nat) : Int :=
  let k : Int := (width num : Int) - width den
  let s := scaled10 num den (-k)
  if s.1 < s.2 then k - 1 else k

def onGrids (x : Dyadic) (num den : Nat) (lead : Int) : Nat → Nat → Expansion
  | 0, n => ⟨(scaled10 num den (n - lead)).1 / (scaled10 num den (n - lead)).2,lead - n⟩
  | more + 1, n =>
    let p : Int := lead + 1 - n
    let s := scaled10 num den (-p)
    let c := s.1 / s.2
    match readsBack x c p, readsBack x (c + 1) p with
    | false, false => onGrids x num den lead more (n + 1)
    | true, false => ⟨c,p⟩
    | false, true => ⟨c + 1,p⟩
    | true, true =>
      let r := s.1 % s.2
      if 2 * r < s.2 then ⟨c,p⟩ else if s.2 < 2 * r then ⟨c + 1,p⟩
      else if c % 2 = 0 then ⟨c,p⟩ else ⟨c + 1,p⟩

/-- Moves trailing zeros of the digits into the exponent; `fuel` bounds their number. -/
def Expansion.stripped : Nat → Expansion → Expansion
  | 0, d => d
  | fuel + 1, d =>
    if d.digits ≠ 0 ∧ d.digits % 10 = 0 then stripped fuel ⟨d.digits / 10,d.exponent + 1⟩ else d

/-- The shortest decimal of a finite value, without its sign. -/
def shortest (x : Dyadic) : Expansion :=
  if x.mantissa = 0 then ⟨0,0⟩
  else
    let v := scaled x.mantissa 1 x.exponent
    Expansion.stripped 20 (onGrids x v.1 v.2 (leading v.1 v.2) 17 1)

end ScanService.Decimal
