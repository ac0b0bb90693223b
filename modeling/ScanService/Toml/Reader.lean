import ScanService.Toml.Quoted
import ScanService.Toml.Number
import ScanService.Toml.Table
/-! Reading a TOML text as data. -/
namespace ScanService.Toml

mutual

def readValue : Nat → List Char → Option (Json × List Char)
  | 0, _ => none
  | _ + 1, [] => none
  | fuel + 1, c :: r =>
    if c = '"' ∨ c.toNat = 39 then (readString (c :: r)).map fun p => (.str p.1,p.2)
    else if c = '[' then
      match skipLines r.length r with
      | ']' :: r' => some (.arr [],r')
      | r' => (readItems fuel r').map fun p => (.arr p.1,p.2)
    else if c = '\x7b' then
      match skipBlanks r with
      | '\x7d' :: r' => some (.obj [],r')
      | r' => (readInline fuel [] r').map fun p =>
          (.obj (Node.membersToJson (2 * r.length + 2) p.1),p.2)
    else if c = 't' then (readWord "true" (c :: r)).map fun r' => (.bool true,r')
    else if c = 'f' then (readWord "false" (c :: r)).map fun r' => (.bool false,r')
    else readNumber (c :: r)

/-- The items of an array, at least one; a comma may follow the last one. -/
def readItems : Nat → List Char → Option (List Json × List Char)
  | 0, _ => none
  | fuel + 1, cs =>
    match readValue fuel cs with
    | none => none
    | some (j,r) =>
      match skipLines r.length r with
      | ']' :: r' => some ([j],r')
      | ',' :: r' =>
        match skipLines r'.length r' with
        | ']' :: r'' => some ([j],r'')
        | r'' => (readItems fuel r'').map fun p => (j :: p.1,p.2)
      | _ => none

/-- The members of an inline table, at least one, on one line. -/
def readInline : Nat → Members → List Char → Option (Members × List Char)
  | 0, _, _ => none
  | fuel + 1, ms, cs =>
    match readKey (cs.length + 1) cs with
    | some (key,'=' :: r) =>
      match readValue fuel (skipBlanks r) with
      | none => none
      | some (j,r') =>
        match addValue key j ms with
        | none => none
        | some ms' =>
          match skipBlanks r' with
          | '\x7d' :: r'' => some (ms',r'')
          | ',' :: r'' => readInline fuel ms' r''
          | _ => none
    | _ => none

end

/-- A text while it is read: the table that is open, by its header, and all members. -/
structure Document where
  header : List String
  members : Members

def readHeader (d : Document) (cs : List Char) : Option (Document × List Char) :=
  match readKey (cs.length + 1) cs with
  | some (key,']' :: r) =>
    match openTable key d.members, endLine r with
    | some ms, some r' => some (⟨key,ms⟩,r')
    | _, _ => none
  | _ => none

/-- A line with a header of one more table of a series. -/
def readSeriesHeader (d : Document) (cs : List Char) : Option (Document × List Char) :=
  match readKey (cs.length + 1) cs with
  | some (key,']' :: ']' :: r) =>
    match openNext key d.members, endLine r with
    | some ms, some r' => some (⟨key,ms⟩,r')
    | _, _ => none
  | _ => none

def readPair (d : Document) (cs : List Char) : Option (Document × List Char) :=
  match readKey (cs.length + 1) cs with
  | some (key,'=' :: r) =>
    match readValue (2 * r.length + 2) (skipBlanks r) with
    | none => none
    | some (j,r') =>
      match addUnder d.header key j d.members, endLine r' with
      | some ms, some r'' => some (⟨d.header,ms⟩,r'')
      | _, _ => none
  | _ => none

/-- Reads line by line; `fuel` bounds the number of lines. -/
def readLines : Nat → Document → List Char → Option Document
  | 0, _, _ => none
  | fuel + 1, d, cs =>
    match skipLines cs.length cs with
    | [] => some d
    | '[' :: '[' :: r => (readSeriesHeader d r).bind fun p => readLines fuel p.1 p.2
    | '[' :: r => (readHeader d r).bind fun p => readLines fuel p.1 p.2
    | r => (readPair d r).bind fun p => readLines fuel p.1 p.2

/-- The data of a TOML text. A mark of byte order may stand in front. -/
def ofText (s : String) : Option Json :=
  let cs := match s.toList with
    | c :: r => if c.toNat = 0xFEFF then r else c :: r
    | [] => []
  (readLines (cs.length + 1) ⟨[],[]⟩ cs).map fun d =>
    .obj (Node.membersToJson (2 * cs.length + 2) d.members)

end ScanService.Toml
