import ScanService.Json.Basic
import ScanService.Decimal.Numeral
/-! Numbers and times in TOML. -/
namespace ScanService.Toml

/-- Digits that pass a test, with single underscores between them, and the rest. -/
def readDigits (isDigit : Char → Bool) : List Char → Option (List Char × List Char)
  | [] => none
  | [c] => if isDigit c then some ([c],[]) else none
  | c :: d :: r =>
    if isDigit c then
      if isDigit d then (readDigits isDigit (d :: r)).map fun p => (c :: p.1,p.2)
      else if d = '_' then (readDigits isDigit r).map fun p => (c :: p.1,p.2)
      else some ([c],d :: r)
    else none

def int64 (i : Int) : Option Json :=
  if -0x8000000000000000 ≤ i ∧ i < 0x8000000000000000 then some (.int i) else none

def readBased (base : Nat) (cs : List Char) : Option (Json × List Char) :=
  match readDigits (fun c => (Text.Radix.digitOf base c).isSome) cs with
  | none => none
  | some (ds,r) => ((Text.Radix.read base ds).bind fun n => int64 n).map fun j => (j,r)

def readPlaces : List Char → Option (List Char × List Char)
  | '.' :: r => readDigits Char.isDigit r
  | r => some ([],r)

def readPower : List Char → Option (Option Int × List Char)
  | [] => some (none,[])
  | c :: r =>
    if c = 'e' ∨ c = 'E' then
      let s := Decimal.splitSign r
      (readDigits Char.isDigit s.2).map fun p =>
        let n : Int := ((Text.Radix.read 10 p.1).getD 0 : Nat)
        (some (if s.1 then -n else n),p.2)
    else some (none,c :: r)

def floatOf (n : Decimal.Numeral) : Option Json :=
  let x := n.toFloat
  if x.isInf && !n.negative then none else some (.float x)

def readDecimal (cs : List Char) : Option (Json × List Char) :=
  let s := Decimal.splitSign cs
  match readDigits Char.isDigit s.2 with
  | none => none
  | some (whole,r) =>
    if whole.head? = some '0' ∧ 1 < whole.length then none
    else match readPlaces r with
      | none => none
      | some (places,r') =>
        match readPower r' with
        | none => none
        | some (power,r'') =>
          let digits := (Text.Radix.read 10 (whole ++ places)).getD 0
          if places.isEmpty ∧ power.isNone then
            (int64 (if s.1 then -(digits : Int) else digits)).map fun j => (j,r'')
          else
            (floatOf ⟨s.1,digits,power.getD 0 - places.length⟩).map fun j => (j,r'')

def readWord (word : String) (cs : List Char) : Option (List Char) :=
  if word.toList.isPrefixOf cs then some (cs.drop word.length) else none

def infinity (negative : Bool) : Json := .float (Decimal.nearest negative (Nat.pow 2 1100) 1)

def notANumber : Json := .float (0.0 / 0.0)

def readSpecial (cs : List Char) : Option (Json × List Char) :=
  let s := Decimal.splitSign cs
  match readWord "inf" s.2 with
  | some r => some (infinity s.1,r)
  | none => (readWord "nan" s.2).map fun r => (notANumber,r)

/-! ### Times -/

/-- A decimal number of a fixed width between two bounds. -/
def readFixed (width lo hi : Nat) (cs : List Char) : Option (Nat × List Char) :=
  let ds := cs.take width
  if ds.length = width ∧ ds.all Char.isDigit then
    let n := (Text.Radix.read 10 ds).getD 0
    if lo ≤ n ∧ n ≤ hi then some (n,cs.drop width) else none
  else none

def readChar (c : Char) : List Char → Option (List Char)
  | d :: r => if d = c then some r else none
  | [] => none

def leapYear (y : Nat) : Bool := y % 4 = 0 && (y % 100 ≠ 0 || y % 400 = 0)

def daysIn (year month : Nat) : Nat :=
  if month = 2 then if leapYear year then 29 else 28
  else if month = 4 ∨ month = 6 ∨ month = 9 ∨ month = 11 then 30
  else 31

def readDate (cs : List Char) : Option (List Char) := do
  let (year,r) ← readFixed 4 0 9999 cs
  let r ← readChar '-' r
  let (month,r) ← readFixed 2 1 12 r
  let r ← readChar '-' r
  let (_,r) ← readFixed 2 1 (daysIn year month) r
  return r

def readFraction : List Char → Option (List Char)
  | '.' :: r =>
    match r.takeWhile Char.isDigit with
    | [] => none
    | _ => some (r.dropWhile Char.isDigit)
  | r => some r

def readTime (cs : List Char) : Option (List Char) := do
  let (_,r) ← readFixed 2 0 23 cs
  let r ← readChar ':' r
  let (_,r) ← readFixed 2 0 59 r
  let r ← readChar ':' r
  let (_,r) ← readFixed 2 0 60 r
  readFraction r

def readOffset : List Char → Option (List Char)
  | [] => some []
  | c :: r =>
    if c = 'Z' ∨ c = 'z' then some r
    else if c = '+' ∨ c = '-' then do
      let (_,r) ← readFixed 2 0 23 r
      let r ← readChar ':' r
      let (_,r) ← readFixed 2 0 59 r
      return r
    else some (c :: r)

/-- A point in time as data: one member that no record of this program has. -/
def moment : Json := .obj [("moment",.null)]

def readMoment (cs : List Char) : Option (Json × List Char) :=
  let whole := (cs.take 4).all Char.isDigit && (cs.drop 4).head? = some '-'
  let clock := (cs.take 2).all Char.isDigit && (cs.drop 2).head? = some ':'
  if whole then
    match readDate cs with
    | none => none
    | some r =>
      let after := match r with
        | c :: r' => if c = 'T' ∨ c = 't' ∨ c = ' ' then readTime r' else none
        | [] => none
      match after with
      | some r' => (readOffset r').map fun r'' => (moment,r'')
      | none =>
        match r with
        | c :: _ => if c = 'T' ∨ c = 't' then none else some (moment,r)
        | [] => some (moment,r)
  else if clock then (readTime cs).map fun r => (moment,r)
  else none

/-- Whether a text starts as a date or a time of day does. -/
def startsMoment (cs : List Char) : Bool :=
  (cs.take 4).length = 4 && (cs.take 4).all Char.isDigit && (cs.drop 4).head? = some '-' ||
    (cs.take 2).length = 2 && (cs.take 2).all Char.isDigit && (cs.drop 2).head? = some ':'

def readNumber (cs : List Char) : Option (Json × List Char) :=
  if startsMoment cs then readMoment cs
  else match cs with
    | '0' :: 'x' :: r => readBased 16 r
    | '0' :: 'o' :: r => readBased 8 r
    | '0' :: 'b' :: r => readBased 2 r
    | cs =>
      match (Decimal.splitSign cs).2 with
      | 'i' :: _ => readSpecial cs
      | 'n' :: _ => readSpecial cs
      | _ => readDecimal cs

end ScanService.Toml
