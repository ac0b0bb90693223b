import ScanService.Rehearsal.Direction
import ScanService.Server
/-! A server on a stage, from its start to its end. -/
namespace ScanService.Rehearsal

def scanAll (r : Rehearsal) : List (Coordinate Float) → Rehearsal × List Outcome
  | [] => (r,[])
  | place :: places =>
    let p := r.perform (.scan place)
    let rest := scanAll p.1 places
    (rest.1,p.2 :: rest.2)

/-- Starts a server whose service is on a stage, scans places, and stops it. -/
def serve (s : Server) (r : Rehearsal) (listening : Except String Unit)
    (places : List (Coordinate Float)) : Except ServerFailure Unit × List Outcome × Rehearsal :=
  let p := ({ s with service := r.service } : Server).start [] listening
  let r := { r with service := p.1.service }
  match p.2 with
  | .error e => (.error e,[],r)
  | .ok () =>
    let r := (r.perform (.startPurge (s.config.cache.purgeInterval * 1000))).1
    let q := r.scanAll places
    let r := (q.1.perform .stopPurge).1
    (.ok (),q.2,(r.perform .shutdown).1)

end ScanService.Rehearsal
