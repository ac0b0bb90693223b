import ScanService.Cli.Invocation
import ScanService.Config.File
import ScanService.Disk
import ScanService.Json.Reader
import ScanService.Server
import ScanService.Store.Command
/-! Running a command line. -/
namespace ScanService.Cli

/-- Where the program runs: its files, its environment, the time of day in milliseconds, and at
which addresses it can listen. -/
structure World where
  disk : Disk
  environment : Config.Environment
  clock : Int
  listening : Address → Except String Unit

/-- What the program leaves behind: its exit code, its output, and the text of its error. -/
structure Ending where
  code : Nat
  output : String
  error : Option String
deriving DecidableEq, Repr

namespace Ending

def lines (ls : List String) : String := String.join (ls.map (· ++ "\n"))

def success (ls : List String) : Ending := ⟨0,lines ls,none⟩

def failure (ls : List String) (text : String) : Ending := ⟨1,lines ls,some ("Error: " ++ text)⟩

def misuse : Ending := ⟨2,"",none⟩

def crash (ls : List String) : Ending := ⟨101,lines ls,none⟩

end Ending

def usage : String :=
  "Rate-limited scan session pool and geolocated object cache\n\n" ++
    "Usage: minion [OPTIONS] <COMMAND>\n"

/-! ### Settings -/

def logLevels : List String :=
  ["trace","debug","info","warn","error","off","0","1","2","3","4","5",""]

/-- The configuration of a file, or else of the environment. -/
def loadConfig (w : World) : Option String → Except String Config
  | none => .ok (.ofEnvironment w.environment)
  | some path =>
    match w.disk.text? path with
    | none => .error ("Failed to read config file: " ++ path)
    | some text =>
      match Config.ofToml? text with
      | none => .error ("Failed to parse TOML config file: " ++ path)
      | some c => .ok c

/-- The configuration of an invocation, whose log level has to be one unless the log is verbose. -/
def configOf (w : World) (i : Invocation) : Except String Config :=
  match loadConfig w i.config with
  | .error e => .error e
  | .ok c =>
    if i.verbose ∨ logLevels.contains c.log.level.toLower then .ok c
    else .error "invalid filter directive"

/-! ### Tasks on the store -/

/-- Does something with the store of the configuration, and keeps what it has become. -/
def withStore (w : World) (path : String) (act : Store → Store × Ending) : World × Ending :=
  match w.disk.openStore path with
  | (disk,.error _) => ({ w with disk },.failure [] ("Failed to open database: " ++ path))
  | (disk,.ok store) =>
    let r := act store
    ({ w with disk := disk.saveStore path r.1 },r.2)

/-- The end of a call of the store: its report, or its failure. -/
def report {α : Type} (f : α → List String) (r : Store × Except StoreFailure α) : Store × Ending :=
  match r with
  | (s,.ok a) => (s,.success (f a))
  | (s,.error e) => (s,.failure [] e.message)

def number (n : Nat) : String := Text.Radix.decimal n

def statsReport (s : Store) : Store × Ending :=
  match s.identityStats with
  | (s,.error e) => (s,.failure [] e.message)
  | (s,.ok i) =>
    match s.egressStats with
    | (s,.error e) => (s,.failure [] e.message)
    | (s,.ok e) =>
      let known := ["Resource Statistics","===================","  Identities: " ++ number i.total,
        "    In use: " ++ number i.used,"    Banned: " ++ number i.banned,
        "  Egress (alive): " ++ number e.alive,"    In use: " ++ number e.aliveUsed]
      match s.count with
      | (s,.ok n) => (s,.success (known ++ ["  Stored objects: " ++ number n]))
      | (s,.error e) => (s,.failure known e.message)

/-- Adds egresses one after the other, and passes over those that are there. -/
def addAll (s : Store) (done : List String) (added : Nat) : List Int → Store × Ending
  | [] => (s,.success (done ++ ["Added " ++ number added ++ " egress points"]))
  | id :: ids =>
    let name := Text.Radix.signed id
    match s.addEgress id with
    | (s,.ok ()) => addAll s done (added + 1) ids
    | (s,.error e) =>
      if e.isDuplicate then addAll s (done ++ ["  Egress " ++ name ++ " already exists, skipping"])
        added ids
      else (s,.failure done ("Failed to add egress " ++ name))

def bannedReport (is : List Identity) : List String :=
  if is.isEmpty then ["No banned identities"]
  else ("Banned identities (" ++ number is.length ++ "):")
    :: is.map fun i => "  " ++ i.name ++ " (" ++ i.provider ++ ")"

def addOne (s : Store) (name secret provider : String) : Store × Ending :=
  match s.addIdentity { name, secret, provider } with
  | (s,.ok ()) => (s,.success ["Added identity " ++ name ++ " (" ++ provider ++ ")"])
  | (s,.error _) => (s,.failure [] ("Failed to add identity " ++ name))

/-- Reconciles with a status file, which is read before the store is opened. -/
def reconcile (w : World) (path status : String) : World × Ending :=
  match w.disk.text? status with
  | none => (w,.failure [] ("Failed to read status file: " ++ status))
  | some text =>
    match Json.ofText text >>= StatusEntry.listOfJson? with
    | none => (w,.failure [] "Failed to parse status snapshot")
    | some entries =>
      withStore w path fun s => report (fun n => ["Reconciled " ++ number entries.length ++
        " assignments (" ++ number n ++ " records changed)"]) (s.reconcile entries)

/-! ### Serving -/

def banner (c : Config) : List String :=
  ["Starting Minion Server","======================","  Listen: " ++ c.server.listen.text,
    "  Database: " ++ c.database,"  Gateway: " ++ c.remote.gatewayUrl,
    "  Scan delay: " ++ number c.pool.scanDelay ++ "s",
    "  Rate: " ++ Decimal.plain.text c.scan.ticksPerSecond ++ " req/s",
    "  Status endpoints: " ++ (if c.server.secret.isSome then "enabled" else "disabled"),"",
    "API Endpoints:","  POST /q           - Scan around lat/lng",
    "  POST /c           - Cached objects around lat/lng",
    "  GET  /s           - Session assignments (secret)",
    "  GET  /stats       - Resource counts (secret)","  GET  /api/health  - Health check",
    "  GET  /metrics     - Prometheus metrics endpoint","","Press Ctrl+C to stop.",""]

/-- A configuration with another address to listen at. -/
def listenAt (c : Config) : Option String → Except String Config
  | none => .ok c
  | some text =>
    match Address.ofText? text with
    | some a => .ok { c with server := { c.server with listen := a } }
    | none => .error "Invalid listen address"

/-- Serves until it is told to stop, with what happens in between: `events` are what comes to the
service. -/
def serveStore (w : World) (c : Config) (events : List Event) (store : Store) : Store × Ending :=
  match Server.build c store w.clock with
  | .crashed => (store,.crash (banner c))
  | .refused _ => (store,.failure (banner c) "Failed to create minion server")
  | .ready server =>
    match server.start [] (w.listening c.server.listen) with
    | (server,.error e) => (server.service.store,.failure (banner c) e.message)
    | (server,.ok ()) =>
      let server := server.purge
      let server := { server with service := server.service.run events }
      (server.stop.service.store,.success (banner c ++ ["Minion server stopped."]))

/-! ### All tasks -/

def perform (w : World) (c : Config) : Task → World × Ending
  | .serve listen =>
    match listenAt c listen with
    | .error e => (w,.failure [] e)
    | .ok c => withStore w c.database (serveStore w c [])
  | .purge before =>
    withStore w c.database fun s =>
      report (fun n => ["Removed " ++ number n ++ " expired creatures"])
        (s.purge (before.getD (w.clock / 1000)))
  | .stats => withStore w c.database statsReport
  | .reconcile status => reconcile w c.database status
  | .dropAllEgress =>
    withStore w c.database fun s =>
      report (fun n => ["Dropped " ++ number n ++ " egress points"]) s.dropAllEgress
  | .removeDeadEgress =>
    withStore w c.database fun s =>
      report (fun n => ["Removed " ++ number n ++ " dead egress points"]) s.removeDeadEgress
  | .addEgress ids => withStore w c.database fun s => addAll s [] 0 ids
  | .addIdentity name secret provider =>
    withStore w c.database fun s => addOne s name secret provider
  | .bannedIdentities => withStore w c.database fun s => report bannedReport s.banned

def run (w : World) (words : List String) : World × Ending :=
  match parse words with
  | .misuse => (w,.misuse)
  | .help => (w,⟨0,usage,none⟩)
  | .version => (w,.success ["minion 0.1.0"])
  | .run i =>
    match configOf w i with
    | .error e => (w,.failure [] e)
    | .ok c => perform w c i.task

end ScanService.Cli
