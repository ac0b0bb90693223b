import ScanService.Cli.Arguments
import ScanService.Text.Radix
/-! What the command line of the service can say. -/
namespace ScanService.Cli

inductive Task
  | serve (listen : Option String)
  | purge (before : Option Int)
  | stats
  | reconcile (status : String)
  | dropAllEgress
  | removeDeadEgress
  | addEgress (ids : List Int)
  | addIdentity (name secret provider : String)
  | bannedIdentities
deriving DecidableEq, Repr

structure Invocation where
  config : Option String
  verbose : Bool
  logFormat : Option String
  task : Task
deriving DecidableEq, Repr

inductive Parsed
  | misuse
  | help
  | version
  | run (i : Invocation)
deriving DecidableEq, Repr

/-! ### The options -/

def anyText (_ : String) : Bool := true

def isPath (s : String) : Bool := s ≠ ""

def isInteger (s : String) : Bool := (Text.Radix.readSigned64 s.toList).isSome

def common : List Flag :=
  [⟨"config",some 'c',some isPath⟩,⟨"verbose",some 'v',none⟩,⟨"log-format",none,some anyText⟩]

structure Leaf where
  path : List String
  flags : List Flag := []
  words : Words := {}
  task : Given → Option Task

def value? (g : Given) (name : String) : Option String := g.flags.lookup name

def integer (s : String) : Int := (Text.Radix.readSigned64 s.toList).getD 0

def leaves : List Leaf :=
  [{ path := ["serve"], flags := [⟨"listen",some 'l',some anyText⟩],
     task := fun g => some (.serve (value? g "listen")) },
    { path := ["purge"], flags := [⟨"before",none,some isInteger⟩],
      task := fun g => some (.purge ((value? g "before").map integer)) },
    { path := ["stats"], task := fun _ => some .stats },
    { path := ["reconcile"], flags := [⟨"status",none,some isPath⟩],
      task := fun g => (value? g "status").map .reconcile },
    { path := ["egress","drop-all"], task := fun _ => some .dropAllEgress },
    { path := ["egress","remove-dead"], task := fun _ => some .removeDeadEgress },
    { path := ["egress","add"], words := { others := some isInteger },
      task := fun g => if g.words.isEmpty then none else some (.addEgress (g.words.map integer)) },
    { path := ["identity","add"], flags := [⟨"provider",none,some anyText⟩],
      words := { first := [anyText,anyText] },
      task := fun g => match g.words with
        | [name,secret] => some (.addIdentity name secret ((value? g "provider").getD "ptc"))
        | _ => none },
    { path := ["identity","banned"], task := fun _ => some .bannedIdentities }]

def below (path : List String) : List String :=
  let next := leaves.filterMap fun l =>
    if path.isPrefixOf l.path then l.path[path.length]? else none
  next.foldl (fun known n => if known.contains n then known else known ++ [n]) []

def isHelpPath : List String → List String → Bool
  | _, [] => true
  | path, w :: ws => (below path).contains w && isHelpPath (path ++ [w]) ws

def levelAt (path : List String) : Level :=
  match leaves.find? (·.path = path) with
  | some l => { flags := common ++ l.flags, words := l.words }
  | none => { flags := common, commands := "help" :: below path, version := path.isEmpty }

/-- The task at the end of a path. What was given nearest to the end counts. -/
def finish (path : List String) (g : Given) (above : List (String × String)) : Parsed :=
  match (leaves.find? (·.path = path)).bind fun l => l.task g with
  | none => .misuse
  | some task =>
    let all : Given := ⟨g.flags ++ above,g.words⟩
    .run ⟨value? all "config",(value? all "verbose").isSome,value? all "log-format",task⟩

/-- Reads the words below a path; `depth` bounds the commands below each other. -/
def parseBelow : Nat → List String → List (String × String) → List String → Parsed
  | 0, _, _, _ => .misuse
  | depth + 1, path, above, ws =>
    match (levelAt path).read {} ws with
    | .misuse => .misuse
    | .help => .help
    | .version => .version
    | .done g => finish path g above
    | .command g name rest =>
      if name = "help" then (if isHelpPath path rest then .help else .misuse)
      else parseBelow depth (path ++ [name]) (g.flags ++ above) rest

def parse (ws : List String) : Parsed := parseBelow 3 [] [] ws

end ScanService.Cli
