import ScanService.Service.Reply
import ScanService.Service.Session
/-! One scan with a session: enter it in the registry, log in, wait for a tick, query the map, and
go by the retry rules when a call fails. However the scan ends, it gives its session back once.
While the registry is locked a scan that has to change it waits, and may be abandoned there. -/
namespace ScanService.Service

def outcome : Except ScanFailure (List (ScanObject Float)) → String
  | .ok _ => "success"
  | .error e => e.outcome

/-- A scan has its result. If a client asked over HTTP, it is answered. -/
def conclude (s : Service) (task started : Nat) (http : Bool)
    (result : Except ScanFailure (List (ScanObject Float))) : Service :=
  let span := spanSeconds (s.now - started)
  let s := (s.observe (.scan (outcome result) span)).note (.returned task result)
  if http then
    (s.observe (.request "/q" 200 span)).note
      (.answered task (.response (.json 200 (Reply.ofScan result).text)))
  else s

def finishReleased (s : Service) (c : Scan)
    (result : Except ScanFailure (List (ScanObject Float))) : Service :=
  let s := (s.release c.session s.settings.cooldown).note (.handedBack c.task c.session .released)
  (s.dropScan c.task).conclude c.task c.started c.http result

/-- Ends a scan whose session is taken out of service. -/
def retireNow (s : Service) (c : Scan) (reason : Retirement) (e : ScanFailure) : Service :=
  let s := { s with registry := s.registry.remove c.session.identity.name }
  let s := (s.retire c.session reason).1.note (.handedBack c.task c.session (.retired reason))
  (s.dropScan c.task).conclude c.task c.started c.http (.error e)

/-- Ends a scan whose session is taken out of service, once the registry can be written. -/
def finishRetired (s : Service) (c : Scan) (reason : Retirement) (e : ScanFailure) : Service :=
  if s.locked then s.putScan { c with stage := .delisting reason e } else s.retireNow c reason e

def startLogin (s : Service) (c : Scan) (force : Bool) : Service :=
  (s.call c.task c.session (.login force)).putScan { c with stage := .login force }

/-- Enters a scan in the registry, and lets a new one move to its place. -/
def enrol (s : Service) (c : Scan) (place : Option (Coordinate Float)) : Service :=
  let s := { s with registry := s.registry.assign c.session.entry }
  match place with
  | some p => s.call c.task c.session (.move p)
  | none => s

/-- Enters a scan in the registry and goes on to its login. -/
def enlistNow (s : Service) (c : Scan) (place : Option (Coordinate Float)) : Service :=
  (s.enrol c place).startLogin c false

/-- Enters a scan in the registry and goes on, once the registry can be written. -/
def enlist (s : Service) (c : Scan) (place : Option (Coordinate Float)) : Service :=
  if s.locked then s.putScan { c with stage := .listing place } else s.enlistNow c place

def killEgress (s : Service) (session : Session) : Service :=
  { s with store := (s.store.kill session.egress.id).1 }

/-- Goes on through another egress, or ends the scan if there is none. -/
def substitute (s : Service) (c : Scan) : Service :=
  let s := s.killEgress c.session
  match s.replaceEgress c.session with
  | (s,.ok session) => s.enlist { c with session } none
  | (s,.error e) => s.finishRetired c .egressDead (.ofPool e)

/-- Does what the retry rules say about a failure. A repeated scan logs in again only if it is not
logged in. -/
def fail (s : Service) (c : Scan) (cause : RemoteFailure) : Service :=
  let s := s.note (.failed c.task c.session cause)
  let d := c.budget.decide cause.category
  let s := if d.1.retries then s.observe (.retry cause.category.label) else s
  let c := { c with budget := d.2 }
  match d.1 with
  | .substituteEgress => s.substitute c
  | .killEgress => (s.killEgress c.session).finishRetired c .egressDead (.remote cause)
  | .banIdentity =>
    let s := { s with store := (s.store.ban c.session.identity.name).1 }
    s.finishRetired c .identityBanned (.remote cause)
  | .retryQuery =>
    match c.stage with
    | .login _ => s.startLogin c false
    | _ => s.putScan { c with stage := .pacing }
  | .giveUp => s.finishReleased c (.error (.remote cause))

/-- Stores what the map shows, as far as the store takes it, and ends the scan. -/
def succeed (s : Service) (c : Scan) (response : MapResponse) : Service :=
  let objects := response.objects s.clock
  ({ s with store := s.store.writeAll objects }).finishReleased c (.ok objects)

/-- The answer to a login. A token that is refused makes the login be forced once. -/
def loginDone (s : Service) (c : Scan) (forced : Bool) (result : Except RemoteFailure Unit) :
    Service :=
  match result with
  | .ok () => s.putScan { c with stage := .pacing }
  | .error cause =>
    if cause = .invalidAuthToken ∧ ¬forced then s.startLogin c true else s.fail c cause

/-- The tick for which a scan waited: the map is queried. -/
def gateOpen (s : Service) (c : Scan) : Service :=
  (s.call c.task c.session .fetch).putScan
    { c with stage := .fetch (s.after s.settings.queryTimeout) }

def fetchDone (s : Service) (c : Scan) (result : Except RemoteFailure MapResponse) : Service :=
  match result with
  | .ok response => s.succeed c response
  | .error cause => s.fail c cause

def expire (s : Service) (c : Scan) : Service :=
  s.fail c (.deadlineExceeded (s.settings.queryTimeout % 0x10000000000000000))

def begin (s : Service) (task started : Nat) (http : Bool) (place : Coordinate Float)
    (session : Session) : Service :=
  let c : Scan := ⟨task,started,http,session,.full,.listing (some place)⟩
  let s := s.note (.obtained task session)
  { s with scans := s.scans ++ [c] }.enlist c (some place)

/-- Takes an entry out of the registry, or leaves that for later if the registry is locked. -/
def delist (s : Service) (account : String) : Service :=
  if s.locked then { s with leftovers := s.leftovers ++ [account] }
  else { s with registry := s.registry.remove account }

/-- Ends a scan whose caller is gone: its resources are given back and its entry is removed. -/
def abandon (s : Service) (c : Scan) : Service :=
  let s := s.delist c.session.identity.name
  ((s.freeSession c.session).note (.handedBack c.task c.session .abandoned)).dropScan c.task

end ScanService.Service
