import ScanService.Decimal.Layout
/-! Data values and their compact JSON text. Objects keep the order of their members. -/
namespace ScanService

/-- A number in data: an integer of at most 64 bits, a float, or a literal beyond the floats. -/
inductive Number
  | int (n : Int)
  | float (x : Float)
  | beyond

inductive Json
  | null
  | bool (b : Bool)
  | num (n : Number)
  | str (s : String)
  | arr (items : List Json)
  | obj (members : List (String × Json))

namespace Json

instance : Inhabited Json := ⟨.null⟩

def int (n : Int) : Json := .num (.int n)
def nat (n : Nat) : Json := .num (.int n)
def float (x : Float) : Json := .num (.float x)

def opt {α : Type} (f : α → Json) : Option α → Json
  | none => .null
  | some a => f a

def get? (j : Json) (name : String) : Option Json :=
  match j with
  | .obj ms => ms.lookup name
  | _ => none

def unicodeEscape (c : Char) : List Char := '\\' :: 'u' :: Text.Radix.padded 16 4 c.toNat

/-- A character inside quotes: quotes and backslashes are escaped, control characters by their short
form or their number, and all else stands for itself. -/
def escape (c : Char) : List Char :=
  if c = '"' then ['\\','"']
  else if c = '\\' then ['\\','\\']
  else if c.toNat = 8 then ['\\','b']
  else if c.toNat = 9 then ['\\','t']
  else if c.toNat = 10 then ['\\','n']
  else if c.toNat = 12 then ['\\','f']
  else if c.toNat = 13 then ['\\','r']
  else if c.toNat < 32 then unicodeEscape c
  else [c]

def quoted (s : String) : List Char := '"' :: s.toList.flatMap escape ++ ['"']

/-- A number; floats that are not finite have no JSON form and are written `null`. -/
def number : Number → List Char
  | .int n => Text.Radix.signedChars n
  | .float x =>
    match Decimal.Shape.of x with
    | .finite _ => (Decimal.data.text x).toList
    | _ => ['n','u','l','l']
  | .beyond => ['n','u','l','l']

mutual

def chars : Json → List Char
  | .null => ['n','u','l','l']
  | .bool true => ['t','r','u','e']
  | .bool false => ['f','a','l','s','e']
  | .num n => number n
  | .str s => quoted s
  | .arr items => '[' :: itemChars items
  | .obj members => '\x7b' :: memberChars members

/-- Items with commas between them, and the closing bracket. -/
def itemChars : List Json → List Char
  | [] => [']']
  | [j] => chars j ++ [']']
  | j :: k :: r => chars j ++ ',' :: itemChars (k :: r)

/-- Members with commas between them, and the closing brace. -/
def memberChars : List (String × Json) → List Char
  | [] => ['\x7d']
  | [m] => quoted m.1 ++ ':' :: chars m.2 ++ ['\x7d']
  | m :: n :: r => quoted m.1 ++ ':' :: chars m.2 ++ ',' :: memberChars (n :: r)

end

def text (j : Json) : String := String.ofList j.chars

end Json

end ScanService
