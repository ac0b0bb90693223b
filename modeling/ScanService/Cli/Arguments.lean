/-! Words of a command line: options by long or short name, commands, and plain words. -/
namespace ScanService.Cli

/-- An option. One that takes a value says which values it takes. -/
structure Flag where
  name : String
  short : Option Char := none
  accepts : Option (String → Bool) := none

/-- Plain words: a test for each, and for any number of others after them. -/
structure Words where
  first : List (String → Bool) := []
  others : Option (String → Bool) := none

/-- The options and the plain words that were given. -/
structure Given where
  flags : List (String × String)
  words : List String
deriving DecidableEq, Repr

structure Level where
  flags : List Flag
  words : Words := {}
  commands : List String := []
  version : Bool := false

inductive Stop
  | misuse
  | help
  | version
  | done (g : Given)
  | command (g : Given) (name : String) (rest : List String)
deriving DecidableEq, Repr

/-- What has been read of a level: an option may wait for its value, and after two dashes all words
are plain. -/
structure Reading where
  given : Given := ⟨[],[]⟩
  pending : Option Flag := none
  plain : Bool := false

namespace Level

/-- Adds an option, which may be given once, with a value that it takes. -/
def add (g : Given) (f : Flag) (value : String) : Option Given :=
  if (g.flags.map (·.1)).contains f.name ∨
    !((f.accepts.map fun test => test value).getD true) then none
  else some { g with flags := g.flags ++ [(f.name,value)] }

def addWord (l : Level) (g : Given) (w : String) : Option Given :=
  match l.words.first[g.words.length]? <|> l.words.others with
  | some test => if test w then some { g with words := g.words ++ [w] } else none
  | none => none

/-- Short options in one word: the first one that takes a value takes the rest. -/
def readShort (l : Level) : Given → List Char → Except Stop Reading
  | g, [] => .ok { given := g }
  | g, c :: r =>
    match l.flags.find? (·.short = some c) with
    | none =>
      if c = 'h' then .error .help
      else if c = 'V' ∧ l.version then .error .version
      else .error .misuse
    | some f =>
      if f.accepts.isNone then
        match add g f "" with
        | some g => readShort l g r
        | none => .error .misuse
      else
        match r with
        | [] => .ok { given := g, pending := some f }
        | '=' :: value | value =>
          match add g f (String.ofList value) with
          | some g => .ok { given := g }
          | none => .error .misuse

/-- A long option, with a value after an equals sign or without. -/
def readLong (l : Level) (g : Given) (cs : List Char) : Except Stop Reading :=
  let name := String.ofList (cs.takeWhile (· ≠ '='))
  let value := match cs.dropWhile (· ≠ '=') with
    | [] => none
    | _ :: r => some (String.ofList r)
  match l.flags.find? (·.name = name), value with
  | some f, some v =>
    match f.accepts, add g f v with
    | some _, some g => .ok { given := g }
    | _, _ => .error .misuse
  | some f, none =>
    match f.accepts, add g f "" with
    | some _, _ => .ok { given := g, pending := some f }
    | none, some g => .ok { given := g }
    | none, none => .error .misuse
  | none, none =>
    if name = "help" then .error .help
    else if name = "version" ∧ l.version then .error .version
    else .error .misuse
  | none, some _ => .error .misuse

/-- A word that is an option or the value of one, or a plain word. -/
def readWord (l : Level) (r : Reading) (w : String) : Except Stop Reading :=
  let plain (r : Reading) : Except Stop Reading := match l.addWord r.given w with
    | some g => .ok { r with given := g }
    | none => .error .misuse
  if r.plain then plain r
  else match w.toList, r.pending with
    | '-' :: '-' :: _, some _ | '-' :: _ :: _, some _ => .error .misuse
    | ['-','-'], none => .ok { r with plain := true }
    | '-' :: '-' :: cs, none => l.readLong r.given cs
    | '-' :: c :: cs, none => l.readShort r.given (c :: cs)
    | _, some f =>
      match add r.given f w with
      | some g => .ok { given := g }
      | none => .error .misuse
    | _, none => plain r

def isCommand (l : Level) (r : Reading) (w : String) : Bool :=
  !r.plain && r.pending.isNone && l.commands.contains w

def read (l : Level) : Reading → List String → Stop
  | r, [] => if r.pending.isSome then .misuse else .done r.given
  | r, w :: ws =>
    if l.isCommand r w then .command r.given w ws
    else match l.readWord r w with
      | .ok r => read l r ws
      | .error stop => stop

end Level

end ScanService.Cli
