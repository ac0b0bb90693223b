import ScanService.Config.Address
import ScanService.Http.Form
/-! URLs with a host: their parts, and which texts are none. -/
namespace ScanService.Http

/-- Why a text is no URL with a host: it does not begin with a scheme, it has a scheme but no host,
or it is broken. -/
inductive UrlFault
  | relative
  | hostless
  | broken
deriving DecidableEq, Repr

/-- The parts of a URL. The user and the host are in plain text, the rest as it goes into a
request. -/
structure Url where
  scheme : String
  user : Option String
  host : String
  port : Option Nat
  path : String
  query : Option String
deriving DecidableEq, Repr

namespace Url

def hosted : List String := ["http","https","ws","wss","ftp"]

def schemeChar (c : Char) : Bool := c.isAlphanum || c = '+' || c = '-' || c = '.'

/-- The scheme in small letters, and what follows its colon. -/
def readScheme (cs : List Char) : Option (String × List Char) :=
  match cs.dropWhile schemeChar with
  | ':' :: r =>
    let name := cs.takeWhile schemeChar
    if (name.head?.map Char.isAlpha).getD false then some (String.ofList (name.map Char.toLower),r)
    else none
  | _ => none

def isSlash (c : Char) : Bool := c = '/' || c = '\\'

def endsHost (c : Char) : Bool := isSlash c || c = '?' || c = '#'

def plain (cs : List Char) : List Char := Text.Utf8.decode (percentDecode (Text.Utf8.encode cs))

def badHostChar (c : Char) :
    Bool := c.toNat ≤ 0x20 || c.toNat = 0x7F || "#/:<>?@[\\]^|%".toList.contains c

/-- One number of an IPv4 address, in base ten, eight or sixteen. -/
def addressPart (cs : List Char) : Option Nat :=
  match cs with
  | '0' :: 'x' :: r | '0' :: 'X' :: r => if r.isEmpty then some 0 else Text.Radix.read 16 r
  | '0' :: c :: r => Text.Radix.read 8 (c :: r)
  | r => Text.Radix.read 10 r

/-- The parts of a host between dots; an empty one at the end does not count. -/
def labels (cs : List Char) : List (List Char) :=
  let parts := Text.splitOn '.' cs
  if 1 < parts.length ∧ parts.getLast? = some [] then parts.dropLast else parts

/-- Whether a host has to be an IPv4 address: its last part is a number. -/
def endsInNumber (cs : List Char) : Bool :=
  match (labels cs).getLast? with
  | none => false
  | some l => !l.isEmpty && (l.all Char.isDigit || (addressPart l).isSome)

/-- The address that one to four numbers stand for: each but the last one gives a byte, and the last
one fills the rest. -/
def addressOf (cs : List Char) : Option String := do
  let parts ← (labels cs).mapM addressPart
  let last ← parts.getLast?
  let firsts := parts.dropLast
  if 4 < parts.length ∨ firsts.any (255 < ·) ∨ Nat.pow 256 (4 - firsts.length) ≤ last then none
  else
    let n := Text.Radix.value 256 firsts * Nat.pow 256 (4 - firsts.length) + last
    some (String.ofList
      (Address.octetsText [n / 0x1000000,n / 0x10000 % 256,n / 256 % 256,n % 256]))

def readHost (cs : List Char) : Option String :=
  match cs with
  | '[' :: r =>
    match Address.readV6 r with
    | some (groups,[']']) => some (String.ofList ('[' :: Address.v6Text groups ++ [']']))
    | _ => none
  | _ =>
    let name := (plain cs).map Char.toLower
    if name.isEmpty ∨ name.any badHostChar then none
    else if endsInNumber name then addressOf name
    else some (String.ofList name)

/-- The part up to a colon outside of brackets, and the rest. -/
def untilColon : Bool → List Char → List Char × List Char
  | _, [] => ([],[])
  | inside, c :: r =>
    if c = ':' ∧ ¬inside then ([],c :: r)
    else
      let rest := untilColon (c = '[' || inside && c ≠ ']') r
      (c :: rest.1,rest.2)

def readPort (cs : List Char) : Option (Option Nat) :=
  match cs with
  | [] | [':'] => some none
  | _ :: r =>
    if r.all Char.isDigit then ((Text.Radix.read 10 r).filter (· < 0x10000)).map some else none

/-- The part before the last at sign, if there is one, and the rest. -/
def splitUser (cs : List Char) : Option (List Char) × List Char :=
  if cs.contains '@' then
    let host := (cs.reverse.takeWhile (· ≠ '@')).reverse
    (some (cs.take (cs.length - host.length - 1)),host)
  else (none,cs)

/-! ### Paths -/

def hexDigit (n : Nat) : Char := (Text.Radix.digitChar n).toUpper

/-- Writes the bytes that are not to be kept as percent signs and digits. -/
def escaped (keep : Char → Bool) (cs : List Char) : List Char :=
  cs.flatMap fun c =>
    if keep c then [c]
    else (Text.Utf8.encode [c]).flatMap fun b =>
      ['%',hexDigit (b.toNat / 16),hexDigit (b.toNat % 16)]

def keptInPath (c : Char) : Bool :=
  0x20 < c.toNat && c.toNat < 0x7F && !("\"#<>?^\x7b\x7d".toList.contains c || c.toNat = 96)

def keptInQuery (c : Char) : Bool := 0x20 < c.toNat && c.toNat < 0x7F && !"\"#<>'".toList.contains c

def spelled (cs : List Char) : String := (String.ofList cs).toLower.replace "%2e" "."

/-- The parts of a path without steps to the same or to the upper level. -/
def walked : List (List Char) → List (List Char) → List (List Char)
  | done, [] => done
  | done, part :: rest =>
    let up := spelled part = ".."
    let kept := if up then done.dropLast else done
    let last := if rest.isEmpty then [[]] else []
    if up ∨ spelled part = "." then walked (kept ++ last) rest
    else walked (done ++ [part]) rest

/-- The path that a text gives, and the query after it. -/
def readPath (cs : List Char) : String × Option String :=
  let whole := cs.takeWhile (· ≠ '#')
  let path := (whole.takeWhile (· ≠ '?')).map fun c => if c = '\\' then '/' else c
  let query := whole.dropWhile (· ≠ '?')
  let parts := walked [] (Text.splitOn '/' (if path.isEmpty then [] else path.drop 1))
  (String.ofList ('/' :: Address.joined '/' (parts.map (escaped keptInPath))),
    match query with
    | [] => none
    | _ :: r => some (String.ofList (escaped keptInQuery r)))

def readRest (scheme : String) (cs : List Char) : Option Url := do
  let (user,place) := splitUser (cs.takeWhile fun c => !endsHost c)
  let (name,port) := untilColon false place
  let host ← readHost name
  let port ← readPort port
  let (path,query) := readPath (cs.dropWhile fun c => !endsHost c)
  let user := user.filter fun u => !u.isEmpty && u ≠ [':']
  return ⟨scheme,user.map fun u => String.ofList (plain (u.takeWhile (· ≠ ':'))),host,port,path,
    query⟩

/-- Whether a character does not count anywhere in a URL. -/
def isIgnored (c : Char) : Bool := c.toNat = 9 || c.toNat = 10 || c.toNat = 13

def isEdge (c : Char) : Bool := c.toNat ≤ 0x20

def ofText? (s : String) : Except UrlFault Url :=
  let trimmed := ((s.toList.dropWhile isEdge).reverse.dropWhile isEdge).reverse
  let cs := trimmed.filter fun c => !isIgnored c
  match readScheme cs with
  | none => .error .relative
  | some (scheme,r) =>
    if hosted.contains scheme then
      match readRest scheme (r.dropWhile isSlash) with
      | some u => .ok u
      | none => .error .broken
    else match r with
      | '/' :: '/' :: r =>
        if (r.takeWhile fun c => !endsHost c).isEmpty then .error .hostless
        else match readRest scheme r with
          | some u => .ok u
          | none => .error .broken
      | _ => .error .hostless

def socks : List String := ["socks4","socks4a","socks5","socks5h"]

def defaultPort (scheme : String) : Nat :=
  if scheme = "https" then 443 else if socks.contains scheme then 1080 else 80

def portInUse (u : Url) : Nat := u.port.getD (defaultPort u.scheme)

end Url

end ScanService.Http
