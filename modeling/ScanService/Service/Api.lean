import ScanService.Decimal.Numeral
import ScanService.Http.Form
import ScanService.Service.Line
import ScanService.Text.Blank
/-! The HTTP interface: which paths there are, what a request asks for, and how it is answered. Only
a form with a valid place, posted to the scan path, starts a scan; every other request is answered
at once. -/
namespace ScanService

inductive Route
  | scan
  | cached
  | status
  | stats
  | health
  | metrics
deriving DecidableEq, Repr

namespace Route

def all : List Route := [scan,cached,status,stats,health,metrics]

def path : Route → String
  | scan => "/q"
  | cached => "/c"
  | status => "/s"
  | stats => "/stats"
  | health => "/api/health"
  | metrics => "/metrics"

def ofPath? (s : String) : Option Route := all.find? (·.path == s)

def posts (r : Route) : Bool := r = scan || r = cached

def methods (r : Route) : List String := if r.posts then ["POST"] else ["GET","HEAD"]

def allow (r : Route) : String := String.intercalate "," r.methods

end Route

inductive Demand
  | reply (r : Http.Response)
  | refusal (route : Route) (text : String)
  | scan (place : Coordinate Float)
  | cached (place : Coordinate Float) (kinds : List ObjectKind)
  | status (secret : Option String)
  | stats (secret : Option String)
  | health
  | metrics

namespace Demand

/-- A field of a form as a number; blanks around it do not count. -/
def number (fields : List (String × String)) (name : String) : Except String Float :=
  let raw := (Http.lastField fields name).getD ""
  match Decimal.readFloat (Text.trimmed raw.toList) with
  | .ok x => .ok x
  | .error e => .error ("invalid " ++ name ++ " '" ++ raw ++ "': " ++ e.message)

def place (fields : List (String × String)) : Except String (Coordinate Float) :=
  match number fields "lat" with
  | .error e => .error e
  | .ok lat =>
    match number fields "lng" with
    | .error e => .error e
    | .ok lng =>
      let c : Coordinate Float := ⟨lat,lng⟩
      if c.valid then .ok c
      else .error ("coordinate (" ++ Decimal.plain.text lat ++ ", " ++ Decimal.plain.text lng ++
        ") out of range")

/-- The kinds whose field is not empty; all if there is none. -/
def kinds (fields : List (String × String)) : List ObjectKind :=
  let marked := [("p",ObjectKind.creature),("s",.checkpoint),("g",.stronghold)].filter fun m =>
    ((Http.lastField fields m.1).map fun v => !v.isEmpty).getD false
  if marked.isEmpty then ObjectKind.all else marked.map (·.2)

def formType : String := "application/x-www-form-urlencoded"

def formLimit : Nat := 2097152

/-- Whether a content type begins like that of a form and is plain text throughout. -/
def isFormType (s : String) :
    Bool := formType.toList.isPrefixOf s.toList && s.toList.all (·.toNat < 128)

def ofForm (route : Route) (r : Http.Request) : Demand :=
  if !isFormType (r.contentType.getD "") then
    .reply (.text 415 "Form requests must have `Content-Type: application/x-www-form-urlencoded`")
  else if formLimit < r.body.utf8ByteSize then
    .reply (.text 413 "Failed to buffer the request body: length limit exceeded")
  else
    let fields := Http.formFields r.body
    match place fields with
    | .error text => .refusal route text
    | .ok c => if route = .scan then .scan c else .cached c (kinds fields)

def secret (query : Option String) : Except String (Option String) :=
  match ((query.map Http.formFields).getD []).filter (·.1 = "secret") with
  | [] => .ok none
  | [f] => .ok (some f.2)
  | _ => .error "Failed to deserialize query string: duplicate field `secret`"

def ofQuery (route : Route) (query : Option String) : Demand :=
  match route, secret query with
  | .status, .ok given => .status given
  | .stats, .ok given => .stats given
  | .status, .error text | .stats, .error text => .reply (.text 400 text)
  | .metrics, _ => .metrics
  | _, _ => .health

def ofRequest (r : Http.Request) : Demand :=
  let route := Route.ofPath? r.target.path
  if r.method = "OPTIONS" then .reply ⟨200,none,route.map Route.allow,true,""⟩
  else match route with
    | none => .reply (.bare 404)
    | some route =>
      if !route.methods.contains r.method then .reply ⟨405,none,some route.allow,false,""⟩
      else if route.posts then ofForm route r
      else ofQuery route r.target.query

end Demand

namespace Service

def authorized (s : Service) (given : Option String) : Bool :=
  s.settings.secret.isSome && s.settings.secret = given

def forbidden : Http.Response := .text 403 "nope"

def answerCached (s : Service) (place : Coordinate Float) (kinds : List ObjectKind) :
    Service × Http.Response :=
  match s.store.query place s.settings.cacheRadius kinds s.seconds with
  | (store,.ok os) =>
    (({ s with store }).observe (.request "/c" 200 0.0),.json 200 (Reply.success os).text)
  | (store,.error _) =>
    (({ s with store }).observe (.request "/c" 500 0.0),
      .json 500 (Reply.failure "Failed to get map objects").text)

def answerStats (s : Service) : Service × Http.Response :=
  let unavailable : Http.Response := .text 500 "store unavailable"
  match s.store.identityStats with
  | (store,.error _) => ({ s with store },unavailable)
  | (store,.ok i) =>
    match store.egressStats with
    | (store,.error _) => ({ s with store },unavailable)
    | (store,.ok e) =>
      ({ s with store },
        .json 200 (Reply.stats i e s.pool.parked s.registry.size s.uptime).text)

def handle (s : Service) : Demand → Service × Http.Response
  | .reply r => (s,r)
  | .refusal route text =>
    (s.observe (.request route.path 400 0.0),.json 400 (Reply.failure text).text)
  | .scan _ => (s,.bare 404)
  | .cached place kinds => s.answerCached place kinds
  | .status given =>
    if s.authorized given then (s,.json 200 (StatusEntry.listToJson s.registry.snapshot).text)
    else (s,forbidden)
  | .stats given => if s.authorized given then s.answerStats else (s,forbidden)
  | .health => (s,.json 200 (Reply.health s.uptime).text)
  | .metrics =>
    (s,⟨200,some "text/plain; version=0.0.4",none,false,
      String.join ((Metrics.lines s.observations).map (· ++ "\n"))⟩)

/-- The answer without its body, for requests that want none. -/
def withoutBody (r : Http.Request) (a : Http.Response) : Http.Response :=
  if r.method = "HEAD" then { a with body := "" } else a

/-- A request arrives. One for a scan stands in line; any other is answered. -/
def request (s : Service) (r : Http.Request) : Service :=
  match Demand.ofRequest r with
  | .scan place => s.arrive (.scan place true) s.settings.acquireWait
  | demand =>
    let a := s.handle demand
    ({ a.1 with nextTask := s.nextTask + 1 }).note
      (.answered s.nextTask (.response (withoutBody r a.2)))

end Service

end ScanService
