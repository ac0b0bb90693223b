import ScanService.Text.Radix
/-! Addresses to listen on: an IPv4 address in four numbers or an IPv6 address in brackets, and a
port. -/
namespace ScanService

inductive Address
  | v4 (octets : List Nat) (port : Nat)
  | v6 (groups : List Nat) (scope port : Nat)
deriving DecidableEq, Repr

namespace Address

def isDigitOf (base : Nat) (c : Char) : Bool := (Text.Radix.digitOf base c).isSome

/-- A run of digits of any length up to a limit, of a value up to a bound, and the rest. -/
def readNumber (base : Nat) (limit : Option Nat) (top : Nat) (cs : List Char) :
    Option (Nat × List Char) :=
  let ds := cs.takeWhile (isDigitOf base)
  let fits := (limit.map fun n => decide (ds.length ≤ n)).getD true
  match Text.Radix.read base ds with
  | some n => if fits ∧ n ≤ top then some (n,cs.dropWhile (isDigitOf base)) else none
  | none => none

/-- One number of an IPv4 address: no zero in front of other digits. -/
def readOctet (cs : List Char) : Option (Nat × List Char) :=
  match readNumber 10 (some 3) 255 cs with
  | some (n,r) =>
    if cs.head? = some '0' ∧ r.length + 1 < cs.length then none else some (n,r)
  | none => none

def readChar (c : Char) : List Char → Option (List Char)
  | d :: r => if d = c then some r else none
  | [] => none

def readV4 (cs : List Char) : Option (List Nat × List Char) := do
  let (a,r) ← readOctet cs
  let r ← readChar '.' r
  let (b,r) ← readOctet r
  let r ← readChar '.' r
  let (c,r) ← readOctet r
  let r ← readChar '.' r
  let (d,r) ← readOctet r
  return ([a,b,c,d],r)

def readSeparator (first : Bool) (cs : List Char) : Option (List Char) :=
  if first then some cs else readChar ':' cs

/-- Groups of an IPv6 address, at most `room`, and whether an IPv4 address ended them. -/
def readGroups : Nat → Bool → List Char → List Nat × Bool × List Char
  | 0, _, cs => ([],false,cs)
  | room + 1, first, cs =>
    let embedded :=
      if room = 0 then none else (readSeparator first cs).bind readV4
    match embedded with
    | some ([a,b,c,d],r) => ([a * 256 + b,c * 256 + d],true,r)
    | _ =>
      match (readSeparator first cs).bind (readNumber 16 (some 4) 65535) with
      | none => ([],false,cs)
      | some (g,r) =>
        let rest := readGroups room false r
        (g :: rest.1,rest.2)

/-- An IPv6 address; two colons stand for one or more groups of zero. -/
def readV6 (cs : List Char) : Option (List Nat × List Char) :=
  let head := readGroups 8 true cs
  if head.1.length = 8 then some (head.1,head.2.2)
  else if head.2.1 then none
  else match head.2.2 with
    | ':' :: ':' :: r =>
      let tail := readGroups (7 - head.1.length) true r
      let zeros := List.replicate (8 - head.1.length - tail.1.length) 0
      some (head.1 ++ zeros ++ tail.1,tail.2.2)
    | _ => none

def readPort (cs : List Char) : Option Nat :=
  match readNumber 10 none 65535 cs with
  | some (n,[]) => some n
  | _ => none

def readV4Socket (cs : List Char) : Option Address := do
  let (octets,r) ← readV4 cs
  let r ← readChar ':' r
  let port ← readPort r
  return .v4 octets port

/-- The scope after an IPv6 address, 0 if there is none. -/
def readScope (cs : List Char) : Nat × List Char :=
  match cs with
  | '%' :: r => (readNumber 10 none 0xFFFFFFFF r).getD (0,cs)
  | _ => (0,cs)

def readV6Socket (cs : List Char) : Option Address := do
  let r ← readChar '[' cs
  let (groups,r) ← readV6 r
  let (scope,r) := readScope r
  let r ← readChar ']' r
  let r ← readChar ':' r
  let port ← readPort r
  return .v6 groups scope port

def ofText? (s : String) : Option Address :=
  match readV4Socket s.toList with
  | some a => some a
  | none => readV6Socket s.toList

/-! ### Text -/

def joined (mark : Char) : List (List Char) → List Char
  | [] => []
  | [x] => x
  | x :: y :: r => x ++ mark :: joined mark (y :: r)

def octetsText (octets : List Nat) : List Char := joined '.' (octets.map (Text.Radix.chars 10))

def groupsText (groups : List Nat) : List Char := joined ':' (groups.map (Text.Radix.chars 16))

/-- The length of the run of zeros at the start of each suffix, the longest one first met and where
it starts. -/
def longestZeros (groups : List Nat) : Nat × Nat :=
  let runs := (List.range groups.length).map fun i => (i,((groups.drop i).takeWhile (· = 0)).length)
  runs.foldl (fun best run => if best.2 < run.2 then run else best) (0,0)

/-- An IPv6 address: the longest run of at least two zeros becomes two colons, and an IPv4 address
that is mapped into it is written as such. -/
def v6Text (groups : List Nat) : List Char :=
  match groups with
  | [0,0,0,0,0,0xFFFF,g,h] =>
    "::ffff:".toList ++ octetsText [g / 256,g % 256,h / 256,h % 256]
  | _ =>
    let zeros := longestZeros groups
    if 1 < zeros.2 then
      groupsText (groups.take zeros.1) ++ ':' :: ':' :: groupsText (groups.drop (zeros.1 + zeros.2))
    else groupsText groups

def text : Address → String
  | .v4 octets port => String.ofList (octetsText octets ++ ':' :: Text.Radix.chars 10 port)
  | .v6 groups scope port =>
    let mark := if scope = 0 then [] else '%' :: Text.Radix.chars 10 scope
    String.ofList ('[' :: v6Text groups ++ mark ++ ']' :: ':' :: Text.Radix.chars 10 port)

end Address

end ScanService
