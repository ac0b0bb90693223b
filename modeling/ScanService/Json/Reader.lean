import ScanService.Json.Basic
import ScanService.Decimal.Numeral
/-! Reading JSON text. An integer literal of at most 64 bits is an integer and every other
number a float; a surrogate that stands alone, a raw control character and text after the value
are refused. -/
namespace ScanService.Json

def isSpace (c : Char) : Bool := c = ' ' || c.toNat = 9 || c.toNat = 10 || c.toNat = 13

def skipSpace (cs : List Char) : List Char := cs.dropWhile isSpace

def readHex4 : List Char → Option (Nat × List Char)
  | a :: b :: c :: d :: r => (Text.Radix.read 16 [a,b,c,d]).map fun n => (n,r)
  | _ => none

/-- The rest of a `\u` escape: one unit, or two that form a pair. -/
def readUnicode (cs : List Char) : Option (Char × List Char) :=
  match readHex4 cs with
  | none => none
  | some (u,r) =>
    if 0xD800 ≤ u ∧ u < 0xDC00 then
      match r with
      | '\\' :: 'u' :: r' =>
        match readHex4 r' with
        | none => none
        | some (v,r'') =>
          if 0xDC00 ≤ v ∧ v < 0xE000 then
            some (Char.ofNat (0x10000 + (u - 0xD800) * 0x400 + (v - 0xDC00)),r'')
          else none
      | _ => none
    else if 0xDC00 ≤ u ∧ u < 0xE000 then none
    else some (Char.ofNat u,r)

def shortEscape (c : Char) : Option Char :=
  if c = '"' ∨ c = '\\' ∨ c = '/' then some c
  else if c = 'b' then some (Char.ofNat 8)
  else if c = 'f' then some (Char.ofNat 12)
  else if c = 'n' then some (Char.ofNat 10)
  else if c = 'r' then some (Char.ofNat 13)
  else if c = 't' then some (Char.ofNat 9)
  else none

/-- The characters up to the closing quote; `fuel` bounds their number. -/
def readQuoted : Nat → List Char → Option (List Char × List Char)
  | 0, _ => none
  | _ + 1, [] => none
  | fuel + 1, c :: r =>
    if c = '"' then some ([],r)
    else if c = '\\' then
      match r with
      | [] => none
      | e :: r' =>
        if e = 'u' then
          match readUnicode r' with
          | none => none
          | some (u,r'') => (readQuoted fuel r'').map fun p => (u :: p.1,p.2)
        else match shortEscape e with
          | none => none
          | some u => (readQuoted fuel r').map fun p => (u :: p.1,p.2)
    else if c.toNat < 32 then none
    else (readQuoted fuel r).map fun p => (c :: p.1,p.2)

def readDigits (cs : List Char) : Option (List Char × List Char) :=
  match cs.takeWhile Char.isDigit with
  | [] => none
  | ds => some (ds,cs.dropWhile Char.isDigit)

/-- The digits before the point: no zero in front of others. -/
def readWhole : List Char → Option (List Char × List Char)
  | '0' :: r => if (r.head?.map Char.isDigit).getD false then none else some (['0'],r)
  | cs => readDigits cs

def readPlaces : List Char → Option (List Char × List Char)
  | '.' :: r => readDigits r
  | cs => some ([],cs)

def readPower : List Char → Option (Option Int × List Char)
  | [] => some (none,[])
  | c :: r =>
    if c = 'e' ∨ c = 'E' then
      let s := Decimal.splitSign r
      match readDigits s.2 with
      | none => none
      | some (ds,r') =>
        let n : Int := ((Text.Radix.read 10 ds).getD 0 : Nat)
        some (some (if s.1 then -n else n),r')
    else some (none,c :: r)

/-- The value of a literal: an integer if it has neither point nor exponent and fits 64 bits. -/
def literal (negative : Bool) (whole places : List Char) (power : Option Int) : Number :=
  let digits := (Text.Radix.read 10 (whole ++ places)).getD 0
  let i : Int := if negative then -(digits : Int) else digits
  if places.isEmpty ∧ power.isNone ∧ -0x8000000000000000 ≤ i ∧ i < 0x10000000000000000
      ∧ ¬(negative ∧ digits = 0) then .int i
  else
    let x := (Decimal.Numeral.mk negative digits (power.getD 0 - places.length)).toFloat
    match Decimal.Shape.of x with
    | .finite _ => .float x
    | _ => .beyond

def readNumber (cs : List Char) : Option (Number × List Char) :=
  let negative := cs.head? = some '-'
  match readWhole (if negative then cs.drop 1 else cs) with
  | none => none
  | some (whole,r) =>
    match readPlaces r with
    | none => none
    | some (places,r') => (readPower r').map fun p => (literal negative whole places p.1,p.2)

def readWord (word cs : List Char) : Option (List Char) :=
  if word.isPrefixOf cs then some (cs.drop word.length) else none

mutual

/-- A value without blanks in front; `fuel` bounds the number of steps. -/
def readValue : Nat → List Char → Option (Json × List Char)
  | 0, _ => none
  | _ + 1, [] => none
  | fuel + 1, c :: r =>
    if c = '"' then (readQuoted (r.length + 1) r).map fun p => (.str (String.ofList p.1),p.2)
    else if c = '[' then
      match skipSpace r with
      | ']' :: r' => some (.arr [],r')
      | r' => (readItems fuel r').map fun p => (.arr p.1,p.2)
    else if c = '\x7b' then
      match skipSpace r with
      | '\x7d' :: r' => some (.obj [],r')
      | r' => (readMembers fuel r').map fun p => (.obj p.1,p.2)
    else if c = 'n' then (readWord ['u','l','l'] r).map fun r' => (.null,r')
    else if c = 't' then (readWord ['r','u','e'] r).map fun r' => (.bool true,r')
    else if c = 'f' then (readWord ['a','l','s','e'] r).map fun r' => (.bool false,r')
    else (readNumber (c :: r)).map fun p => (.num p.1,p.2)

/-- The items of an array, at least one, up to its bracket. -/
def readItems : Nat → List Char → Option (List Json × List Char)
  | 0, _ => none
  | fuel + 1, cs =>
    match readValue fuel cs with
    | none => none
    | some (j,r) =>
      match skipSpace r with
      | ']' :: r' => some ([j],r')
      | ',' :: r' => (readItems fuel (skipSpace r')).map fun p => (j :: p.1,p.2)
      | _ => none

/-- The members of an object, at least one, up to its brace. -/
def readMembers : Nat → List Char → Option (List (String × Json) × List Char)
  | 0, _ => none
  | fuel + 1, cs =>
    match cs with
    | '"' :: r =>
      match readQuoted (r.length + 1) r with
      | none => none
      | some (name,r') =>
        match skipSpace r' with
        | ':' :: r'' =>
          match readValue fuel (skipSpace r'') with
          | none => none
          | some (j,s) =>
            match skipSpace s with
            | '\x7d' :: s' => some ([(String.ofList name,j)],s')
            | ',' :: s' =>
              (readMembers fuel (skipSpace s')).map fun p => ((String.ofList name,j) :: p.1,p.2)
            | _ => none
        | _ => none
    | _ => none

end

def ofChars (cs : List Char) : Option Json :=
  match readValue (2 * cs.length + 1) (skipSpace cs) with
  | some (j,r) => if (skipSpace r).isEmpty then some j else none
  | none => none

def ofText (s : String) : Option Json := ofChars s.toList

end ScanService.Json
