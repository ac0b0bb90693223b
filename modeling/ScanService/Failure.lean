import ScanService.Text.Duration
/-! What can go wrong: in the remote service, in the store, in the pool, in a scan. Each failure has
a text, a category that the retry rules go by, and may be worth another try. -/
namespace ScanService

inductive Category
  | resourceExhausted
  | transport
  | credential
  | transientProtocol
  | storage
  | config
  | other
deriving DecidableEq, Repr

namespace Category

def all : List Category :=
  [resourceExhausted,transport,credential,transientProtocol,storage,config,other]

def label : Category → String
  | resourceExhausted => "resource_exhausted"
  | transport => "transport"
  | credential => "credential"
  | transientProtocol => "transient_protocol"
  | storage => "storage"
  | config => "config"
  | other => "other"

def ofLabel? (s : String) : Option Category := all.find? (·.label == s)

theorem ofLabel?_label (c : Category) : ofLabel? c.label = some c := by cases c <;> decide

end Category

/-- What the remote service, or the way to it, answers instead of a result. -/
inductive RemoteFailure
  | invalidAuthToken
  | egressDead
  | credentialRejected
  | accountBanned
  | accountNotActive
  | emptyResponse
  | invalidPlatformRequest
  | deadlineExceeded (millis : Nat)
  | protocol (text : String)
deriving DecidableEq, Repr

namespace RemoteFailure

def message : RemoteFailure → String
  | invalidAuthToken => "Invalid auth token"
  | egressDead => "Egress point is dead"
  | credentialRejected => "Credential rejected"
  | accountBanned => "Account banned"
  | accountNotActive => "Account not yet active"
  | emptyResponse => "Empty response"
  | invalidPlatformRequest => "Invalid platform request"
  | deadlineExceeded ms => "Request deadline exceeded after " ++ Text.Radix.decimal ms ++ " ms"
  | protocol text => "Protocol error: " ++ text

/-- An egress that fails or a deadline that passes is the fault of the way to the remote; an account
that is refused, or answered with nothing, is the fault of the identity. -/
def category : RemoteFailure → Category
  | egressDead | deadlineExceeded _ => .transport
  | credentialRejected | accountBanned | accountNotActive | emptyResponse => .credential
  | invalidPlatformRequest => .transientProtocol
  | invalidAuthToken | protocol _ => .other

def recoverable (e : RemoteFailure) : Bool :=
  e.category = .transport || e.category = .transientProtocol || e = invalidAuthToken

/-- The failure that a gateway names by a code; a code that names none is passed on as it is. -/
def ofCode (code : String) : RemoteFailure :=
  if code = "invalid_auth_token" then invalidAuthToken
  else if code = "egress_dead" ∨ code = "proxy_dead" then egressDead
  else if code = "credential_rejected" then credentialRejected
  else if code = "account_banned" then accountBanned
  else if code = "account_not_active" then accountNotActive
  else if code = "empty_response" then emptyResponse
  else if code = "invalid_platform_request" then invalidPlatformRequest
  else protocol code

end RemoteFailure

inductive StoreFailure
  | notAvailable (resource : String)
  | duplicate (record id : String)
  | lock
  | notNull (column : String)
deriving DecidableEq, Repr

namespace StoreFailure

def message : StoreFailure → String
  | notAvailable resource => "No " ++ resource ++ " available"
  | duplicate record id => "Duplicate " ++ record ++ " id: " ++ id
  | lock => "Storage lock poisoned"
  | notNull column => "SQLite error: NOT NULL constraint failed: " ++ column

def isNotAvailable : StoreFailure → Bool
  | notAvailable _ => true
  | _ => false

def isDuplicate : StoreFailure → Bool
  | duplicate _ _ => true
  | _ => false

def category : StoreFailure → Category
  | notAvailable _ => .resourceExhausted
  | _ => .storage

def recoverable (e : StoreFailure) : Bool := e.isNotAvailable || e.isDuplicate

end StoreFailure

inductive PoolFailure
  | timeout (nanos : Nat)
  | exhausted (resource : String)
  | closed
  | store (cause : StoreFailure)
deriving DecidableEq, Repr

namespace PoolFailure

/-- A store without a free resource exhausts the pool; any other failure of the store stays one. -/
def ofStore : StoreFailure → PoolFailure
  | .notAvailable resource => exhausted resource
  | e => store e

def message : PoolFailure → String
  | timeout nanos => "No session available within " ++ Text.duration nanos
  | exhausted resource => "No " ++ resource ++ " available"
  | closed => "Session pool closed"
  | store e => "Store error: " ++ e.message

def isExhausted : PoolFailure → Bool
  | timeout _ | exhausted _ => true
  | _ => false

def category : PoolFailure → Category
  | timeout _ | exhausted _ => .resourceExhausted
  | closed => .other
  | store e => e.category

def recoverable (e : PoolFailure) : Bool := e ≠ closed

end PoolFailure

inductive ScanFailure
  | busy
  | remote (cause : RemoteFailure)
  | store (cause : StoreFailure)
deriving DecidableEq, Repr

namespace ScanFailure

/-- A pool that has no session makes the scan busy, whatever the reason; only a store that fails
shows through. -/
def ofPool : PoolFailure → ScanFailure
  | .store e => store e
  | _ => busy

def busyMessage : String := "All our minions are busy"

def failedMessage : String := "Scan failed"

def message : ScanFailure → String
  | busy => busyMessage
  | remote e => "Remote failure: " ++ e.message
  | store e => "Store failure: " ++ e.message

def isBusy (e : ScanFailure) : Bool := e = busy

def publicMessage (e : ScanFailure) : String := if e.isBusy then busyMessage else failedMessage

/-- The label under which a scan that ends so is counted. -/
def outcome : ScanFailure → String
  | busy => "busy"
  | remote _ => "remote_error"
  | store _ => "store_error"

def category : ScanFailure → Category
  | busy => .resourceExhausted
  | remote e => e.category
  | store e => e.category

def recoverable : ScanFailure → Bool
  | busy => true
  | remote e => e.recoverable
  | store e => e.recoverable

end ScanFailure

inductive SetupFailure
  | store (cause : StoreFailure)
  | config (text : String)
deriving DecidableEq, Repr

namespace SetupFailure

def message : SetupFailure → String
  | store e => "Store error: " ++ e.message
  | config text => "Config error: " ++ text

def category : SetupFailure → Category
  | store e => e.category
  | config _ => .config

def recoverable : SetupFailure → Bool
  | store e => e.recoverable
  | config _ => false

end SetupFailure

/-- How setting up a part of the service ends: it is there, or it is refused with a reason, or its
parameters are beyond what it can hold and the process stops. -/
inductive Setup (ε α : Type)
  | ready (a : α)
  | refused (cause : ε)
  | crashed
deriving Repr

namespace Setup

def bind {ε α β : Type} (s : Setup ε α) (f : α → Setup ε β) : Setup ε β :=
  match s with
  | ready a => f a
  | refused e => refused e
  | crashed => crashed

def mapCause {ε δ α : Type} (g : ε → δ) : Setup ε α → Setup δ α
  | ready a => ready a
  | refused e => refused (g e)
  | crashed => crashed

end Setup

end ScanService
