import ScanService.Config.Address
import ScanService.Decimal.Numeral
import ScanService.Json.Decode
/-! The configuration of the service: its sections and their defaults, its data form, what the
environment overrides, and which values are accepted. -/
namespace ScanService

structure ServerConfig where
  listen : Address := .v4 [0,0,0,0] 8000
  allowOrigin : String := "*"
  secret : Option String := none
deriving Repr

structure PoolConfig where
  acquireWait : Nat := 5
  scanDelay : Nat := 10
  capacity : Nat := 1024
deriving Repr

structure ScanConfig where
  queryTimeout : Nat := 10
  ticksPerSecond : Float := 5.0
deriving Repr

structure RemoteConfig where
  gatewayUrl : String := "http://127.0.0.1:9000"
  proxyTemplate : Option String := none
  connectTimeout : Nat := 5
deriving Repr

structure CacheConfig where
  radius : Float := 1000.0
  purgeInterval : Nat := 60
deriving Repr

structure LogConfig where
  level : String := "info"
  format : String := "text"
deriving Repr

structure Config where
  server : ServerConfig := {}
  pool : PoolConfig := {}
  scan : ScanConfig := {}
  remote : RemoteConfig := {}
  database : String := "data/minion.db"
  cache : CacheConfig := {}
  log : LogConfig := {}
deriving Repr

namespace Config

/-! ### Data form -/

def toJson (c : Config) : Json :=
  .obj [
    ("server",.obj [("listen_addr",.str c.server.listen.text),
      ("allow_origin",.str c.server.allowOrigin),("secret",Json.opt Json.str c.server.secret)]),
    ("pool",.obj [("acquire_wait_secs",.nat c.pool.acquireWait),
      ("scan_delay_secs",.nat c.pool.scanDelay),("queue_capacity",.nat c.pool.capacity)]),
    ("scan",.obj [("query_timeout_secs",.nat c.scan.queryTimeout),
      ("ticks_per_second",.float c.scan.ticksPerSecond)]),
    ("remote",.obj [("gateway_url",.str c.remote.gatewayUrl),
      ("proxy_template",Json.opt Json.str c.remote.proxyTemplate),
      ("connect_timeout_secs",.nat c.remote.connectTimeout)]),
    ("database",.obj [("path",.str c.database)]),
    ("cache",.obj [("radius_m",.float c.cache.radius),
      ("purge_interval_secs",.nat c.cache.purgeInterval)]),
    ("logging",.obj [("level",.str c.log.level),("format",.str c.log.format)])]

def addressOfJson? (j : Json) : Option Address := Json.asText j >>= Address.ofText?

def part {α : Type} (read : Json → Option α) (default : α) (f : Json.Field) : Option α :=
  f.orElse read default

def serverOfJson? (j : Json) : Option ServerConfig := do
  let fs ← Json.record ["listen_addr","allow_origin","secret"] j
  let d : ServerConfig := {}
  match fs with
  | [listen,origin,secret] =>
    return ⟨← part addressOfJson? d.listen listen,← part Json.asText d.allowOrigin origin,
      ← part (Json.nullable Json.asText) d.secret secret⟩
  | _ => none

def poolOfJson? (j : Json) : Option PoolConfig := do
  let fs ← Json.record ["acquire_wait_secs","scan_delay_secs","queue_capacity"] j
  let d : PoolConfig := {}
  match fs with
  | [wait,delay,capacity] =>
    return ⟨← part Json.asNat64 d.acquireWait wait,← part Json.asNat64 d.scanDelay delay,
      ← part Json.asNat64 d.capacity capacity⟩
  | _ => none

def scanOfJson? (j : Json) : Option ScanConfig := do
  let fs ← Json.record ["query_timeout_secs","ticks_per_second"] j
  let d : ScanConfig := {}
  match fs with
  | [timeout,ticks] =>
    return ⟨← part Json.asNat64 d.queryTimeout timeout,← part Json.asFloat d.ticksPerSecond ticks⟩
  | _ => none

def remoteOfJson? (j : Json) : Option RemoteConfig := do
  let fs ← Json.record ["gateway_url","proxy_template","connect_timeout_secs"] j
  let d : RemoteConfig := {}
  match fs with
  | [url,template,timeout] =>
    return ⟨← part Json.asText d.gatewayUrl url,
      ← part (Json.nullable Json.asText) d.proxyTemplate template,
      ← part Json.asNat64 d.connectTimeout timeout⟩
  | _ => none

def databaseOfJson? (j : Json) : Option String := do
  let fs ← Json.record ["path"] j
  match fs with
  | [path] => part Json.asText ({} : Config).database path
  | _ => none

def cacheOfJson? (j : Json) : Option CacheConfig := do
  let fs ← Json.record ["radius_m","purge_interval_secs"] j
  let d : CacheConfig := {}
  match fs with
  | [radius,interval] =>
    return ⟨← part Json.asFloat d.radius radius,← part Json.asNat64 d.purgeInterval interval⟩
  | _ => none

def logOfJson? (j : Json) : Option LogConfig := do
  let fs ← Json.record ["level","format"] j
  let d : LogConfig := {}
  match fs with
  | [level,format] => return ⟨← part Json.asText d.level level,← part Json.asText d.format format⟩
  | _ => none

/-- A configuration from data; what is left out keeps its default. -/
def ofJson? (j : Json) : Option Config := do
  let fs ← Json.record ["server","pool","scan","remote","database","cache","logging"] j
  let d : Config := {}
  match fs with
  | [server,pool,scan,remote,database,cache,log] =>
    return ⟨← part serverOfJson? d.server server,← part poolOfJson? d.pool pool,
      ← part scanOfJson? d.scan scan,← part remoteOfJson? d.remote remote,
      ← part databaseOfJson? d.database database,← part cacheOfJson? d.cache cache,
      ← part logOfJson? d.log log⟩
  | _ => none

/-! ### Environment -/

abbrev Environment := List (String × String)

/-- The value of a variable if it is set and can be read. -/
def parsed {α : Type} (env : Environment) (name : String) (read : List Char → Option α) :
    Option α :=
  (env.lookup name).bind fun s => read s.toList

def nat64 : List Char → Option Nat := Text.Radix.readUnsigned 0xFFFFFFFFFFFFFFFF

def float (cs : List Char) : Option Float := (Decimal.readFloat cs).toOption

/-- The configuration of an environment. A variable that is not set, or cannot be read, leaves the
default. -/
def ofEnvironment (env : Environment) : Config :=
  let d : Config := {}
  { server :=
      { listen := (parsed env "MINION_LISTEN_ADDR" fun cs =>
        Address.ofText? (String.ofList cs)).getD
          d.server.listen
        allowOrigin := (env.lookup "MINION_ALLOW_ORIGIN").getD d.server.allowOrigin
        secret := env.lookup "MINION_SECRET" }
    pool :=
      { acquireWait := (parsed env "MINION_ACQUIRE_WAIT" nat64).getD d.pool.acquireWait
        scanDelay := (parsed env "MINION_SCAN_DELAY" nat64).getD d.pool.scanDelay
        capacity := (parsed env "MINION_QUEUE_CAPACITY" nat64).getD d.pool.capacity }
    scan :=
      { queryTimeout := (parsed env "MINION_QUERY_TIMEOUT" nat64).getD d.scan.queryTimeout
        ticksPerSecond := (parsed env "MINION_TICKS_PER_SECOND" float).getD d.scan.ticksPerSecond }
    remote :=
      { gatewayUrl := (env.lookup "MINION_GATEWAY_URL").getD d.remote.gatewayUrl
        proxyTemplate := env.lookup "MINION_PROXY_TEMPLATE"
        connectTimeout := d.remote.connectTimeout }
    database := (env.lookup "MINION_DB_PATH").getD d.database
    cache :=
      { radius := (parsed env "MINION_CACHE_RADIUS" float).getD d.cache.radius
        purgeInterval := (parsed env "MINION_PURGE_INTERVAL" nat64).getD d.cache.purgeInterval }
    log :=
      { level := (env.lookup "MINION_LOG_LEVEL").getD d.log.level
        format := (env.lookup "MINION_LOG_FORMAT").getD d.log.format } }

/-! ### Validation -/

/-- What stands for the id of an egress in a proxy template. -/
def placeholder : List Char := ['\x7b','i','d','\x7d']

def occurs (part : List Char) : List Char → Bool
  | [] => part.isEmpty
  | c :: r => part.isPrefixOf (c :: r) || occurs part r

def positive (x : Float) : Bool := x.isFinite && 0.0 < x

def fault? (c : Config) : Option String :=
  if c.pool.capacity = 0 then some "queue_capacity must be greater than 0"
  else if c.scan.queryTimeout = 0 then some "query_timeout_secs must be greater than 0"
  else if !positive c.scan.ticksPerSecond then some "ticks_per_second must be positive"
  else if !positive c.cache.radius then some "cache radius_m must be positive"
  else if c.cache.purgeInterval = 0 then some "purge_interval_secs must be greater than 0"
  else if c.remote.gatewayUrl.isEmpty then some "gateway_url must not be empty"
  else if (c.remote.proxyTemplate.map fun t => !occurs placeholder t.toList).getD false then
    some "proxy_template must contain an \x7bid\x7d placeholder"
  else if c.log.format ≠ "text" ∧ c.log.format ≠ "json" then
    some "log format must be 'text' or 'json'"
  else none

end Config

end ScanService
