import ScanService.Config.Basic
import ScanService.RateGate
import ScanService.Service.Step
/-! Building the service from a configuration, and starting and stopping it. -/
namespace ScanService

inductive ServerFailure
  | config (text : String)
  | setup (cause : SetupFailure)
  | bind (text : String)
deriving DecidableEq, Repr

def ServerFailure.message : ServerFailure → String
  | config text => "Configuration error: " ++ text
  | setup e => "Initialization error: " ++ e.message
  | bind text => "Failed to bind: " ++ text

def Settings.ofConfig (c : Config) : Settings where
  acquireWait := c.pool.acquireWait * 1000
  cooldown := c.pool.scanDelay * 1000
  queryTimeout := c.scan.queryTimeout * 1000
  secret := c.server.secret
  cacheRadius := c.cache.radius
  origin := c.server.allowOrigin

/-- A built service with its configuration, and whether the regular purge is running. -/
structure Server where
  config : Config
  service : Service
  purging : Bool := false

namespace Server

/-- Builds a server, if the configuration has no fault and its rate and its capacity can be held. -/
def build (c : Config) (store : Store) (clock : Int) : Setup ServerFailure Server :=
  match c.fault? with
  | some text => .refused (.config text)
  | none =>
    ((RateGate.perSecond c.scan.ticksPerSecond).bind fun _ =>
      (Pool.ofCapacity c.pool.capacity).bind fun pool =>
        .ready { config := c, service := .fresh (.ofConfig c) store pool clock }).mapCause .setup

/-- Why there is no router: the origin that may read the answers cannot stand in a header. -/
def routerFault? (s : Server) : Option ServerFailure :=
  if s.config.server.allowOrigin = "*" ∨ Http.validHeader s.config.server.allowOrigin then none
  else some (.config "invalid allow_origin: failed to parse header value")

/-- Gets ready to listen: no resource is in use by sessions of an earlier run, and the regular purge
begins. -/
def prepare (s : Server) : Server × Except ServerFailure Unit :=
  match s.routerFault? with
  | some e => (s,.error e)
  | none =>
    match s.service.store.markAllUnused with
    | (store,.error e) =>
      ({ s with service := { s.service with store } },.error (.setup (.store e)))
    | (store,.ok _) => ({ s with service := { s.service with store }, purging := true },.ok ())

def purge (s : Server) : Server := { s with service := s.service.step .purge }

def purgeAt (s : Server) (times : List Int) : Server :=
  times.foldl (fun s millis => purge { s with service := s.service.step (.setClock millis) }) s

/-- Starts the server: it gets ready and listens at its address, where that is possible. `times` are
those at which the purge runs before it is known whether the address can be listened at. -/
def start (s : Server) (times : List Int) (listening : Except String Unit) :
    Server × Except ServerFailure Unit :=
  match s.prepare with
  | (s,.error e) => (s,.error e)
  | (s,.ok ()) => (s.purgeAt times,listening.mapError .bind)

/-- Stops the server: no more purges, and the parked sessions are ended. -/
def stop (s : Server) : Server := { s with service := s.service.step .shutdown, purging := false }

end Server

end ScanService
