import ScanService.Text.Radix
/-! Lexical parts of TOML: blanks, line ends, comments, and strings in their four forms. A reader
gives the value and the rest of the text. -/
namespace ScanService.Toml

def isBlank (c : Char) : Bool := c = ' ' || c.toNat = 9

def skipBlanks (cs : List Char) : List Char := cs.dropWhile isBlank

/-- Characters that stand for themselves in comments and strings: a tab and all that is no
control. -/
def isPlain (c : Char) : Bool := c.toNat = 9 || 32 ≤ c.toNat && c.toNat ≠ 127

def readNewline : List Char → Option (List Char)
  | [] => none
  | c :: r =>
    if c.toNat = 10 then some r
    else if c.toNat = 13 then
      match r with
      | d :: r' => if d.toNat = 10 then some r' else none
      | [] => none
    else none

def skipComment : List Char → List Char
  | '#' :: r => r.dropWhile isPlain
  | cs => cs

/-- The end of a line: blanks, a comment, and a line end or the end of the text. -/
def endLine (cs : List Char) : Option (List Char) :=
  match skipComment (skipBlanks cs) with
  | [] => some []
  | r => readNewline r

/-- Skips blanks, comments and line ends; `fuel` bounds their number. -/
def skipLines : Nat → List Char → List Char
  | 0, cs => cs
  | fuel + 1, cs =>
    let r := skipComment (skipBlanks cs)
    match readNewline r with
    | some r' => skipLines fuel r'
    | none => r

/-- Hexadecimal digits of a fixed number, as a character. -/
def readScalar (width : Nat) (cs : List Char) : Option (Char × List Char) :=
  if cs.length < width then none
  else match Text.Radix.read 16 (cs.take width) with
    | none => none
    | some n => if n.isValidChar then some (Char.ofNat n,cs.drop width) else none

def readEscape : List Char → Option (Char × List Char)
  | [] => none
  | c :: r =>
    if c = 'b' then some (Char.ofNat 8,r)
    else if c = 't' then some (Char.ofNat 9,r)
    else if c = 'n' then some (Char.ofNat 10,r)
    else if c = 'f' then some (Char.ofNat 12,r)
    else if c = 'r' then some (Char.ofNat 13,r)
    else if c = '"' ∨ c = '\\' then some (c,r)
    else if c = 'u' then readScalar 4 r
    else if c = 'U' then readScalar 8 r
    else none

/-- A string in double quotes on one line, after its first quote. -/
def readBasic : Nat → List Char → Option (List Char × List Char)
  | 0, _ => none
  | _ + 1, [] => none
  | fuel + 1, c :: r =>
    if c = '"' then some ([],r)
    else if c = '\\' then
      match readEscape r with
      | none => none
      | some (u,r') => (readBasic fuel r').map fun p => (u :: p.1,p.2)
    else if isPlain c then (readBasic fuel r).map fun p => (c :: p.1,p.2)
    else none

/-- A string in single quotes on one line, after its first quote: nothing is escaped. -/
def readLiteral : List Char → Option (List Char × List Char)
  | [] => none
  | c :: r =>
    if c.toNat = 39 then some ([],r)
    else if isPlain c then (readLiteral r).map fun p => (c :: p.1,p.2)
    else none

def splitQuotes (quote : Char) (cs : List Char) : List Char × List Char :=
  (cs.takeWhile (· = quote),cs.dropWhile (· = quote))

/-- Quotes met in a string of several lines: three close it, and up to two before those belong to
it. -/
def closing (quotes : List Char) : Option (List Char) :=
  if 3 ≤ quotes.length ∧ quotes.length ≤ 5 then some (quotes.drop 3) else none

/-- A string of several lines, after its opening quotes. With `escapes`, backslashes are read, and
one at the end of a line joins it with the next text. -/
def readLong (quote : Char) (escapes : Bool) : Nat → List Char → Option (List Char × List Char)
  | 0, _ => none
  | _ + 1, [] => none
  | fuel + 1, c :: r =>
    if c = quote then
      let q := splitQuotes quote (c :: r)
      if q.1.length < 3 then (readLong quote escapes fuel q.2).map fun p => (q.1 ++ p.1,p.2)
      else (closing q.1).map fun kept => (kept,q.2)
    else if escapes ∧ c = '\\' then
      match readNewline (skipBlanks r) with
      | some r' =>
        let rest := r'.dropWhile fun d => isBlank d || d.toNat = 10 || d.toNat = 13
        readLong quote escapes fuel rest
      | none =>
        match readEscape r with
        | none => none
        | some (u,r') => (readLong quote escapes fuel r').map fun p => (u :: p.1,p.2)
    else if isPlain c then (readLong quote escapes fuel r).map fun p => (c :: p.1,p.2)
    else match readNewline (c :: r) with
      | some r' => (readLong quote escapes fuel r').map fun p => (Char.ofNat 10 :: p.1,p.2)
      | none => none

def dropNewline (cs : List Char) : List Char := (readNewline cs).getD cs

def readString (cs : List Char) : Option (String × List Char) :=
  let single := Char.ofNat 39
  let found :=
    match cs with
    | '"' :: '"' :: '"' :: r => readLong '"' true (r.length + 1) (dropNewline r)
    | '"' :: r => readBasic (r.length + 1) r
    | c :: r =>
      if c = single then
        if r.take 2 = [single,single] then readLong single false (r.length + 1)
          (dropNewline (r.drop 2))
        else readLiteral r
      else none
    | [] => none
  found.map fun p => (String.ofList p.1,p.2)

def isBareKey (c : Char) : Bool := c.isAlphanum || c = '_' || c = '-'

def readKeyPart (cs : List Char) : Option (String × List Char) :=
  match cs with
  | '"' :: r => (readBasic (r.length + 1) r).map fun p => (String.ofList p.1,p.2)
  | c :: r =>
    if c.toNat = 39 then (readLiteral r).map fun p => (String.ofList p.1,p.2)
    else match cs.takeWhile isBareKey with
      | [] => none
      | key => some (String.ofList key,cs.dropWhile isBareKey)
  | [] => none

/-- A key of one or more parts with points between them, and the blanks after it. -/
def readKey : Nat → List Char → Option (List String × List Char)
  | 0, _ => none
  | fuel + 1, cs =>
    match readKeyPart (skipBlanks cs) with
    | none => none
    | some (part,r) =>
      match skipBlanks r with
      | '.' :: r' => (readKey fuel r').map fun p => (part :: p.1,p.2)
      | r' => some ([part],r')

end ScanService.Toml
