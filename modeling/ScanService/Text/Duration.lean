import ScanService.Text.Radix
/-! Spans of time in running text: the largest of the units s, ms, µs and ns that leaves a whole
part, and as many places as the span needs. -/
namespace ScanService.Text

/-- A fraction `n / 10 ^ places` without the zeros at its end; nothing if it is zero. -/
def fraction (places n : Nat) : List Char :=
  let cs := ((Radix.padded 10 places n).reverse.dropWhile (· = '0')).reverse
  if n = 0 then [] else '.' :: cs

/-- A span of so many units of `10 ^ places` nanoseconds each. -/
def inUnits (places : Nat) (unit : String) (nanos : Nat) : String :=
  let size := Nat.pow 10 places
  String.ofList (Radix.chars 10 (nanos / size) ++ fraction places (nanos % size)) ++ unit

def duration (nanos : Nat) : String :=
  if 1000000000 ≤ nanos then inUnits 9 "s" nanos
  else if 1000000 ≤ nanos then inUnits 6 "ms" nanos
  else if 1000 ≤ nanos then inUnits 3 "µs" nanos
  else inUnits 0 "ns" nanos

end ScanService.Text
