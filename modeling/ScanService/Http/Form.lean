import ScanService.Text.Parts
import ScanService.Text.Radix
import ScanService.Text.Utf8
/-! Form fields in a text: pairs between ampersands, an equals sign between name and value, a plus
sign for a blank, and bytes in two hexadecimal digits after a percent sign. -/
namespace ScanService.Http

/-- Bytes of a text with percent signs resolved; a percent sign without two digits stands for
itself. -/
def percentDecode : List UInt8 → List UInt8
  | [] => []
  | [b] => [b]
  | [b,c] => [b,c]
  | b :: c :: d :: r =>
    if b = 37 then
      match Text.Radix.digitOf 16 (Char.ofNat c.toNat),
        Text.Radix.digitOf 16 (Char.ofNat d.toNat) with
      | some hi, some lo => UInt8.ofNat (hi * 16 + lo) :: percentDecode r
      | _, _ => b :: percentDecode (c :: d :: r)
    else b :: percentDecode (c :: d :: r)

def formText (cs : List Char) : String :=
  let spaced := cs.map fun c => if c = '+' then ' ' else c
  String.ofList (Text.Utf8.decode (percentDecode (Text.Utf8.encode spaced)))

def formFields (s : String) : List (String × String) :=
  ((Text.splitOn '&' s.toList).filter fun part => !part.isEmpty).map fun part =>
    (formText (part.takeWhile (· ≠ '=')),formText ((part.dropWhile (· ≠ '=')).drop 1))

/-- The value of a field; the last one of a name counts. -/
def lastField (fields : List (String × String)) (name : String) : Option String :=
  fields.reverse.lookup name

end ScanService.Http
