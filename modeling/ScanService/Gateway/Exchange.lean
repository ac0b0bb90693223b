import ScanService.Coordinate
import ScanService.Failure
import ScanService.Http.Status
import ScanService.Json.Reader
import ScanService.MapResponse
/-! What a client asks the gateway, and how it reads what comes back. -/
namespace ScanService.Gateway

/-- What is asked of the gateway: a token for an account, or the objects on the map around a
place. -/
inductive Request
  | login (username secret provider : String) (force : Bool)
  | mapObjects (token : String) (place : Coordinate Float)

namespace Request

def path : Request → String
  | login .. => "/login"
  | mapObjects .. => "/map-objects"

def toJson : Request → Json
  | login username secret provider force =>
    .obj [("username",.str username),("secret",.str secret),("provider",.str provider),
      ("force",.bool force)]
  | mapObjects token place =>
    .obj [("token",.str token),("lat",.float place.lat),("lng",.float place.lng)]

end Request

/-- What comes of a request: an answer, whose body may break off; no way to the gateway; another
fault on the way; or the caller leaves before the answer, but maybe after its first line. -/
inductive Exchange
  | answered (status : Nat) (body : Option String)
  | unreachable
  | faulty (text : String)
  | left (status : Option Nat)
deriving DecidableEq, Repr

def textOf? (name body : String) : Option String := do
  match ← Json.record [name] (← Json.ofText body) with
  | [field] => field.required Json.asText
  | _ => none

def tokenOf? (body : String) : Option String := textOf? "token" body

def objectsOf? (body : String) : Option MapResponse := Json.ofText body >>= MapResponse.ofJson?

/-- The failure that an answer without success reports. -/
def failureOf (status : Nat) (body : Option String) : RemoteFailure :=
  match body.bind (textOf? "error") with
  | some code => .ofCode code
  | none => .protocol ("gateway returned " ++ Http.statusText status)

end ScanService.Gateway
