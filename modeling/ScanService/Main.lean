import ScanService.Cli.Run
import ScanService.Store.Snapshot
import Std.Time.DateTime.Timestamp
/-! The program. It reads the files that its command line names, runs the command line on them, and
writes back the database. Serving goes on until the standard input ends. -/
namespace ScanService.Program

def variableNames : List String :=
  ["LISTEN_ADDR","ALLOW_ORIGIN","SECRET","ACQUIRE_WAIT","SCAN_DELAY","QUEUE_CAPACITY",
    "QUERY_TIMEOUT","TICKS_PER_SECOND","GATEWAY_URL","PROXY_TEMPLATE","DB_PATH","CACHE_RADIUS",
    "PURGE_INTERVAL","LOG_LEVEL","LOG_FORMAT"].map ("MINION_" ++ ·)

def environment : IO Config.Environment :=
  variableNames.filterMapM fun name => do return (← IO.getEnv name).map fun value => (name,value)

/-- What stands under a path. A file that cannot be read is an unknown text. -/
def entryAt (path : String) : IO (Option DiskEntry) := do
  let file := (← IO.currentDir) / path
  if ← file.isDir then return some .directory
  else if !(← file.pathExists) then return none
  else
    let content ← try IO.FS.readFile file catch _ => pure "?"
    match Store.ofText? content with
    | some store => return some (.database store)
    | none => return some (.text content)

def load (d : Disk) (path : String) : IO Disk := do
  let names := Disk.names path
  (List.range names.length).foldlM (fun d n => do
    let here := names.take (n + 1)
    match ← entryAt (String.intercalate "/" here) with
    | some e => return d.put here e
    | none => return d) d

def save (d : Disk) (path : String) : IO Unit := do
  let names := Disk.straight [] (Disk.names path)
  match d.entry? names with
  | some (.database store) =>
    if names.dropLast ≠ [] then IO.FS.createDirAll (String.intercalate "/" names.dropLast)
    IO.FS.writeFile (String.intercalate "/" names) store.toText
  | _ => pure ()

/-- The files that an invocation names besides the database. -/
def filesOf (i : Cli.Invocation) : List String :=
  i.config.toList ++ match i.task with
    | .reconcile status => [status]
    | _ => []

def waitForEnd : IO Unit := do
  let stdin ← IO.getStdin
  repeat
    if (← stdin.getLine).isEmpty then break

def runHere (words : List String) : IO Cli.Ending := do
  let clock := (← Std.Time.Timestamp.now).toMillisecondsSinceUnixEpoch.val
  let w : Cli.World := ⟨.empty,← environment,clock,fun _ => .ok ()⟩
  match Cli.parse words with
  | .run i =>
    let w := { w with disk := ← (filesOf i).foldlM load w.disk }
    match Cli.configOf w i with
    | .error _ => return (Cli.run w words).2
    | .ok c =>
      let w := { w with disk := ← load w.disk c.database }
      if let .serve _ := i.task then waitForEnd
      let r := Cli.run w words
      save r.1.disk c.database
      return r.2
  | _ => return (Cli.run w words).2

end ScanService.Program

def main (words : List String) : IO UInt32 := do
  let ending ← ScanService.Program.runHere words
  IO.print ending.output
  match ending.error with
  | some text => IO.eprintln text
  | none => if ending.code = 2 then IO.eprint ScanService.Cli.usage
  return ending.code.toUInt32
