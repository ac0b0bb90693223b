import ScanService.Gateway.Exchange
import ScanService.Resource
/-! The client of the gateway that belongs to one session. It goes out through one egress at a time,
and keeps a token as long as it is good: until another egress is bound, the gateway refuses the
token, or a login is answered without success. -/
namespace ScanService.Gateway

/-- The egress that is bound, the token and the place. -/
structure Client where
  bound : Option Int := none
  token : Option String := none
  place : Coordinate Float := ⟨0.0,0.0⟩

/-- What comes of a call: the client after it, the request that it made with the egress it went
through, and its result, unless the caller left. -/
structure Call (α : Type) where
  client : Client
  request : Option (Int × Request)
  result : Option (Except RemoteFailure α)

namespace Client

/-- Binds an egress; a token got through another one is dropped. -/
def bind (c : Client) (egress : Int) : Client :=
  if c.bound = some egress then c else { c with bound := some egress, token := none }

def loginRequest (i : Identity) (force : Bool) : Request := .login i.name i.secret i.provider force

def onLogin (c : Client) : Exchange → Client × Option (Except RemoteFailure Unit)
  | .unreachable => (c,some (.error .egressDead))
  | .faulty text => (c,some (.error (.protocol text)))
  | .left status =>
    (if (status.map Http.isSuccess).getD true then c else { c with token := none },none)
  | .answered status body =>
    if Http.isSuccess status then
      match body.bind tokenOf? with
      | some token => ({ c with token := some token },some (.ok ()))
      | none => (c,some (.error .emptyResponse))
    else ({ c with token := none },some (.error (failureOf status body)))

/-- Logs in through an egress. A token at hand is good enough, unless a new one is forced. `fault`
says why nothing can be sent through the egress, if so. -/
def login (c : Client) (i : Identity) (egress : Int) (force : Bool) (fault : Option String)
    (x : Exchange) : Call Unit :=
  match (if c.bound = some egress then none else fault) with
  | some text => ⟨c,none,some (.error (.protocol text))⟩
  | none =>
    let c := c.bind egress
    if c.token.isSome ∧ ¬force then ⟨c,none,some (.ok ())⟩
    else
      let r := c.onLogin x
      ⟨r.1,some (egress,loginRequest i force),r.2⟩

/-- Whether a call of the client would make a request, if nothing is wrong with the egress. -/
def asksForLogin (c : Client) (egress : Int) (force : Bool) : Bool :=
  force || (c.bind egress).token.isNone

def move (c : Client) (place : Coordinate Float) : Client := { c with place }

def onFetch (c : Client) : Exchange → Client × Option (Except RemoteFailure MapResponse)
  | .unreachable => (c,some (.error .egressDead))
  | .faulty text => (c,some (.error (.protocol text)))
  | .left _ => (c,none)
  | .answered status body =>
    if Http.isSuccess status then
      (c,some (match body.bind objectsOf? with
        | some r => .ok r
        | none => .error .emptyResponse))
    else
      let e := failureOf status body
      (if e = .invalidAuthToken then { c with token := none } else c,some (.error e))

/-- Asks for the objects around the place. Without a token nothing is sent. -/
def fetch (c : Client) (x : Exchange) : Call MapResponse :=
  match c.bound, c.token with
  | some egress, some token =>
    let r := c.onFetch x
    ⟨r.1,some (egress,.mapObjects token c.place),r.2⟩
  | _, _ => ⟨c,none,some (.error .invalidAuthToken)⟩

end Client

end ScanService.Gateway
