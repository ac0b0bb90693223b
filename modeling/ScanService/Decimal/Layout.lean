import ScanService.Decimal.Shortest
import ScanService.Text.Radix
/-! How a float is written: the shortest digits laid out as a format wants them, or a fixed number
of places. -/
namespace ScanService.Decimal

/-- The decisions of a format. A value `0.d₁d₂… * 10 ^ point` is positional when `positional point`;
`fraction` writes `.0` after a whole number. -/
structure Layout where
  positional : Int → Bool
  fraction : Bool
  nan : String
  infinity : String

def Layout.unsigned (l : Layout) (d : Expansion) : List Char :=
  let cs := Text.Radix.chars 10 d.digits
  let point : Int := d.exponent + cs.length
  let whole := if l.fraction then ['.','0'] else []
  if d.digits = 0 then '0' :: whole
  else if l.positional point then
    if 0 ≤ d.exponent then cs ++ List.replicate d.exponent.toNat '0' ++ whole
    else if 0 < point then cs.take point.toNat ++ '.' :: cs.drop point.toNat
    else '0' :: '.' :: List.replicate (-point).toNat '0' ++ cs
  else
    let tail := 'e' :: Text.Radix.signedChars (point - 1)
    match cs with
    | [c] => c :: tail
    | c :: r => c :: '.' :: r ++ tail
    | [] => tail

def Layout.text (l : Layout) (x : Float) : String :=
  match Shape.of x with
  | .nan => l.nan
  | .infinite negative => if negative then "-" ++ l.infinity else l.infinity
  | .finite d =>
    String.ofList ((if d.negative then ['-'] else []) ++ l.unsigned (shortest d))

/-- Numbers in running text never have an exponent, and a whole one has no point. -/
def plain : Layout := ⟨fun _ => true,false,"NaN","inf"⟩

/-- Numbers in data: positional from `0.00001` up to sixteen digits before the point, and a whole
one ends in `.0`. -/
def data : Layout := ⟨fun p => -5 < p && p ≤ 16,true,"null","null"⟩

/-- A float with a fixed number of places; a half goes to the even neighbour. -/
def fixed (places : Nat) (x : Float) : String :=
  match Shape.of x with
  | .nan => "NaN"
  | .infinite negative => if negative then "-inf" else "inf"
  | .finite d =>
    let v := scaled (d.mantissa * Nat.pow 10 places) 1 d.exponent
    let cs := Text.Radix.padded 10 (places + 1) (roundDiv v.1 v.2)
    let whole := cs.length - places
    String.ofList ((if d.negative then ['-'] else []) ++ cs.take whole ++
      (if places = 0 then [] else '.' :: cs.drop whole))

end ScanService.Decimal
