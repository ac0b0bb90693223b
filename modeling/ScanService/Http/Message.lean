import ScanService.Text.Utf8
/-! HTTP requests and responses, as far as the service looks at them. -/
namespace ScanService.Http

structure Target where
  path : String
  query : Option String
deriving DecidableEq, Repr

namespace Target

def pathByte (b : UInt8) : Bool :=
  let n := b.toNat
  n = 0x21 || n = 0x22 || 0x24 ≤ n && n ≤ 0x3B || n = 0x3D || 0x40 ≤ n && n ≤ 0x5F ||
    0x61 ≤ n && n ≤ 0x7E || 0x7F ≤ n

def queryByte (b : UInt8) : Bool :=
  let n := b.toNat
  n = 0x21 || 0x24 ≤ n && n ≤ 0x3B || n = 0x3D || 0x3F ≤ n

def allBytes (p : UInt8 → Bool) (cs : List Char) : Bool := (Text.Utf8.encode cs).all p

/-- A path and what follows it; a fragment is left out. -/
def ofPath? (cs : List Char) : Option Target :=
  let whole := cs.takeWhile (· ≠ '#')
  let path := whole.takeWhile (· ≠ '?')
  let rest := whole.dropWhile (· ≠ '?')
  let query := rest.drop 1
  if allBytes pathByte path && allBytes queryByte query then
    some ⟨if path.isEmpty then "/" else String.ofList path,
      if rest.isEmpty then none else some (String.ofList query)⟩
  else none

def hostChar (c : Char) : Bool := c.isAlphanum || "-._~!$&()*+,;=:@[]%'".toList.contains c

def dropScheme (cs : List Char) : Option (List Char) :=
  let low := cs.map Char.toLower
  if "http://".toList.isPrefixOf low then some (cs.drop 7)
  else if "https://".toList.isPrefixOf low then some (cs.drop 8)
  else none

/-- The target of a request line: a path, a star, a full address, or a host alone, which has no
path. -/
def ofText? (s : String) : Option Target :=
  match s.toList with
  | [] => none
  | '/' :: r => ofPath? ('/' :: r)
  | ['*'] => some ⟨"*",none⟩
  | cs =>
    match dropScheme cs with
    | some r =>
      if (r.takeWhile hostChar).isEmpty then none
      else match r.dropWhile hostChar with
        | [] => some ⟨"/",none⟩
        | c :: r' => if c = '/' ∨ c = '?' ∨ c = '#' then ofPath? (c :: r') else none
    | none => if cs.all hostChar then some ⟨"",none⟩ else none

end Target

structure Request where
  method : String
  target : Target
  contentType : Option String
  body : String
deriving DecidableEq, Repr

def methodChar (c : Char) :
    Bool := c.isAlphanum || "!#$%&'*+-.^_|~".toList.contains c || c.toNat = 96

def validMethod (s : String) : Bool := !s.isEmpty && s.toList.all methodChar

def headerByte (b : UInt8) : Bool := b.toNat = 9 || 32 ≤ b.toNat && b.toNat ≠ 127

def validHeader (s : String) : Bool := s.toUTF8.toList.all headerByte

/-- The value of the first header of a name; the case of names does not count. -/
def headerValue? (headers : List (String × String)) (name : String) : Option String :=
  (headers.find? fun h => h.1.toLower = name).map (·.2)

/-- A request made of its parts, where all of them can stand in one. -/
def Request.ofParts? (method target : String) (headers : List (String × String)) (body : String) :
    Option Request :=
  if validMethod method ∧ headers.all fun h => validMethod h.1 && validHeader h.2 then
    (Target.ofText? target).map fun t => ⟨method,t,headerValue? headers "content-type",body⟩
  else none

structure Response where
  status : Nat
  contentType : Option String
  allow : Option String
  preflight : Bool
  body : String
deriving DecidableEq, Repr

namespace Response

def bare (status : Nat) : Response := ⟨status,none,none,false,""⟩

def text (status : Nat) (body : String) : Response :=
  ⟨status,some "text/plain; charset=utf-8",none,false,body⟩

def json (status : Nat) (body : String) : Response :=
  ⟨status,some "application/json",none,false,body⟩

def header (name : String) : Option String → List (String × String)
  | none => []
  | some value => [(name,value)]

/-- The headers in the order of their names. Every response may be read by the origin that the
service is set up for. -/
def headers (r : Response) (origin : String) : List (String × String) :=
  header "access-control-allow-headers" (if r.preflight then some "*" else none)
    ++ header "access-control-allow-methods" (if r.preflight then some "GET,POST" else none)
    ++ [("access-control-allow-origin",origin)]
    ++ header "allow" r.allow ++ header "content-type" r.contentType
    ++ [("vary","origin, access-control-request-method, access-control-request-headers")]

end Response

end ScanService.Http
