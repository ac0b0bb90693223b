import ScanService.Failure
import ScanService.MapResponse
import ScanService.Resource
/-! The bodies of the answers to clients. -/
namespace ScanService.Reply

def objectsJson (os : List (ScanObject Float)) : Json := .arr (os.map ScanObject.toJson)

def success (os : List (ScanObject Float)) : Json :=
  .obj [("ok",.bool true),("error",.str ""),("mapObjects",objectsJson os)]

def failure (text : String) : Json :=
  .obj [("ok",.bool false),("error",.str text),("mapObjects",.null)]

/-- The answer to the result of a scan; of a failure, clients see its public text. -/
def ofScan : Except ScanFailure (List (ScanObject Float)) → Json
  | .ok os => success os
  | .error e => failure e.publicMessage

def stats (i : IdentityStats) (e : EgressStats) (parked assigned uptime : Nat) : Json :=
  .obj [("identities",i.toJson),("egress",e.toJson),("parked_sessions",.nat parked),
    ("assigned_sessions",.nat assigned),("uptime_secs",.nat uptime)]

def health (uptime : Nat) : Json :=
  .obj [("status",.str "healthy"),("version",.str "0.1.0"),("uptime_secs",.nat uptime)]

end ScanService.Reply
