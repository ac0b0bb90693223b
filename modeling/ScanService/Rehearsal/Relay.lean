import ScanService.Gateway.Client
import ScanService.Gateway.Uplink
/-! A client of the gateway on a stage: one server on this machine, which may be closed, answers
from a script, as the gateway or as the proxy in front of it. -/
namespace ScanService.Rehearsal

/-- An answer of the server: a body that may break off, or none at all. -/
inductive RelayAnswer
  | body (status : Nat) (text : String) (cut : Bool)
  | drop
deriving DecidableEq, Repr

/-- The server: its port, whether it listens, and its next answers. -/
structure Relay where
  port : Nat
  listening : Bool
  script : List RelayAnswer

/-- A request that the server saw: its path, the user that a proxy was asked as, and its body. -/
structure Seen where
  path : String
  via : Option String
  body : Json

namespace Relay

def libraryFault : String := "<http library>"

/-- Whether a host and port lead to the server, which does not encrypt. -/
def isAt (r : Relay) (u : Http.Url) : Bool :=
  r.listening && u.scheme ≠ "https" && ["127.0.0.1","localhost","0.0.0.0"].contains u.host
    && u.portInUse = r.port

/-- The next answer; an empty record when the script is at its end. -/
def next (r : Relay) : RelayAnswer × Relay :=
  match r.script with
  | [] => (.body 200 "\x7b\x7d" false,r)
  | a :: rest => (a,{ r with script := rest })

def exchangeOf : RelayAnswer → Gateway.Exchange
  | .drop => .faulty libraryFault
  | .body status text cut =>
    if Http.isBodiless status then .answered status (some "")
    else .answered status (if cut then none else some text)

def targetText (u : Http.Url) : String := u.path ++ (u.query.map ("?" ++ ·)).getD ""

/-- Sends a request by the way of an egress: through its proxy if it has one, else to the gateway
itself. -/
def send (r : Relay) (uplink : Gateway.Uplink) (egress : Int) (q : Gateway.Request) :
    Relay × Gateway.Exchange × List Seen :=
  match uplink.url? q.path, uplink.proxy? egress with
  | .error _, _ | _, .error _ => (r,.faulty libraryFault,[])
  | .ok url, .ok proxy =>
    if r.isAt (proxy.getD url) then
      let a := r.next
      (a.2,exchangeOf a.1,[⟨targetText url,proxy.bind (·.user),q.toJson⟩])
    else (r,.unreachable,[])

end Relay

inductive ClientStep
  | login (egress : Int) (force : Bool)
  | move (place : Coordinate Float)
  | fetch

inductive ClientResult
  | loggedIn (result : Except RemoteFailure Unit)
  | moved
  | fetched (result : Except RemoteFailure MapResponse)

structure RelayStage where
  uplink : Gateway.Uplink
  identity : Identity
  client : Gateway.Client := {}
  relay : Relay

namespace RelayStage

def fault? (s : RelayStage) (egress : Int) : Option String :=
  match s.uplink.proxy? egress with
  | .ok _ => none
  | .error _ => some Relay.libraryFault

def login (s : RelayStage) (egress : Int) (force : Bool) : RelayStage × ClientResult × List Seen :=
  let fault := s.fault? egress
  let sent := if fault.isNone ∧ s.client.asksForLogin egress force then
      s.relay.send s.uplink egress (Gateway.Client.loginRequest s.identity force)
    else (s.relay,.unreachable,[])
  let call := s.client.login s.identity egress force fault sent.2.1
  ({ s with client := call.client, relay := sent.1 },
    .loggedIn (call.result.getD (.error .emptyResponse)),sent.2.2)

def fetch (s : RelayStage) : RelayStage × ClientResult × List Seen :=
  let sent := match (s.client.fetch .unreachable).request with
    | some (egress,q) => s.relay.send s.uplink egress q
    | none => (s.relay,.unreachable,[])
  let call := s.client.fetch sent.2.1
  ({ s with client := call.client, relay := sent.1 },
    .fetched (call.result.getD (.error .emptyResponse)),sent.2.2)

def step (s : RelayStage) : ClientStep → RelayStage × ClientResult × List Seen
  | .login egress force => s.login egress force
  | .move place => ({ s with client := s.client.move place },.moved,[])
  | .fetch => s.fetch

def run (s : RelayStage) : List ClientStep → List (ClientResult × List Seen)
  | [] => []
  | c :: cs =>
    let r := s.step c
    r.2 :: run r.1 cs

end RelayStage

end ScanService.Rehearsal
