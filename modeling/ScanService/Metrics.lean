import ScanService.Decimal.Layout
import ScanService.Text.Radix
/-! What the service counts and measures, and the text in which it shows it: families in the order
of their names, each with a help line, a type line and its samples in the order of their labels. -/
namespace ScanService

inductive Observation
  | scan (outcome : String) (seconds : Float)
  | retry (category : String)
  | retirement (reason : String)
  | parked (sessions : Nat)
  | purge (kind : String) (removed : Nat)
  | request (endpoint : String) (status : Nat) (seconds : Float)
deriving Repr

namespace Metrics

structure Sample where
  name : String
  labels : List (String × String)
  value : Float

structure Family where
  name : String
  help : String
  type : String
  samples : List Sample

def distinct : List (List String) → List (List String)
  | [] => []
  | [x] => [x]
  | x :: y :: r => if x = y then distinct (y :: r) else x :: distinct (y :: r)

/-- The order of label values: by the first in which they differ. -/
def labelsLe : List String → List String → Bool
  | [], _ => true
  | _ :: _, [] => false
  | a :: as, b :: bs => if a = b then labelsLe as bs else decide (a ≤ b)

def total (xs : List Float) : Float := xs.foldl (· + ·) 0.0

/-- The samples of a counter: for each value of its labels, in order, the sum of what was counted
under it. -/
def counter (name : String) (labels : List String) (events : List (List String × Float)) :
    List Sample :=
  let keys := distinct ((events.map (·.1)).mergeSort labelsLe)
  keys.map fun k => ⟨name,labels.zip k,total ((events.filter (·.1 = k)).map (·.2))⟩

/-- The samples of a histogram: how many measurements are at most each bound, their sum, and their
number. -/
def histogram (name : String) (labels : List (String × String)) (bounds : List Float)
    (xs : List Float) : List Sample :=
  let count (ys : List Float) : Float := Decimal.ofInt ys.length
  let bucket (mark : String) (ys : List Float) : Sample :=
    ⟨name ++ "_bucket",labels ++ [("le",mark)],count ys⟩
  bounds.map (fun b => bucket (Decimal.plain.text b) (xs.filter (· ≤ b)))
    ++ [bucket "+Inf" xs,⟨name ++ "_sum",labels,total xs⟩,⟨name ++ "_count",labels,count xs⟩]

def scanBounds : List Float := [0.05,0.1,0.25,0.5,1.0,2.5,5.0,10.0,20.0,30.0]

def requestBounds : List Float :=
  [0.001,0.005,0.01,0.025,0.05,0.1,0.25,0.5,1.0,2.5,5.0,10.0]

def requestDurations (log : List Observation) : List Sample :=
  let events := log.filterMap fun
    | .request endpoint _ seconds => some (endpoint,seconds)
    | _ => none
  let endpoints := distinct ((events.map fun e => [e.1]).mergeSort labelsLe)
  endpoints.flatMap fun k =>
    histogram "minion_api_request_duration_seconds" (["endpoint"].zip k) requestBounds
      ((events.filter fun e => [e.1] = k).map (·.2))

def requests (log : List Observation) : List Sample :=
  counter "minion_api_requests_total" ["endpoint","status"] (log.filterMap fun
    | .request endpoint status _ => some ([endpoint,Text.Radix.decimal status],1.0)
    | _ => none)

def purged (log : List Observation) : List Sample :=
  counter "minion_objects_purged_total" ["kind"] (log.filterMap fun
    | .purge kind removed => if removed = 0 then none else some ([kind],Decimal.ofInt removed)
    | _ => none)

def parked (log : List Observation) : List Sample :=
  let seen := log.foldl (fun n o => match o with
    | .parked sessions => sessions
    | _ => n) 0
  [⟨"minion_parked_sessions",[],Decimal.ofInt seen⟩]

def scanDurations (log : List Observation) : List Sample :=
  histogram "minion_scan_duration_seconds" [] scanBounds (log.filterMap fun
    | .scan _ seconds => some seconds
    | _ => none)

def retries (log : List Observation) : List Sample :=
  counter "minion_scan_retries_total" ["category"] (log.filterMap fun
    | .retry category => some ([category],1.0)
    | _ => none)

def scans (log : List Observation) : List Sample :=
  counter "minion_scans_total" ["outcome"] (log.filterMap fun
    | .scan outcome _ => some ([outcome],1.0)
    | _ => none)

def retirements (log : List Observation) : List Sample :=
  counter "minion_sessions_retired_total" ["reason"] (log.filterMap fun
    | .retirement reason => some ([reason],1.0)
    | _ => none)

/-- All families that have samples, for a log with the oldest observation first. -/
def families (log : List Observation) : List Family :=
  [⟨"minion_api_request_duration_seconds","API request duration in seconds","histogram",
      requestDurations log⟩,
    ⟨"minion_api_requests_total","Total API requests by endpoint and status","counter",
      requests log⟩,
    ⟨"minion_objects_purged_total","Expired objects removed from the object store","counter",
      purged log⟩,
    ⟨"minion_parked_sessions","Sessions parked in the pool and ready for reuse","gauge",
      parked log⟩,
    ⟨"minion_scan_duration_seconds","End-to-end scan duration in seconds","histogram",
      scanDurations log⟩,
    ⟨"minion_scan_retries_total","Scan retries by failure category","counter",retries log⟩,
    ⟨"minion_scans_total","Total scan requests by outcome","counter",scans log⟩,
    ⟨"minion_sessions_retired_total","Sessions taken out of service by reason","counter",
      retirements log⟩].filter fun f => !f.samples.isEmpty

def escape (c : Char) : List Char :=
  if c = '\\' then ['\\','\\']
  else if c = '"' then ['\\','"']
  else if c.toNat = 10 then ['\\','n']
  else [c]

def labelText (l : String × String) : String :=
  l.1 ++ "=\"" ++ String.ofList (l.2.toList.flatMap escape) ++ "\""

def Sample.key (s : Sample) : String :=
  if s.labels.isEmpty then s.name
  else s.name ++ "\x7b" ++ String.intercalate "," (s.labels.map labelText) ++ "\x7d"

def Sample.line (s : Sample) : String := s.key ++ " " ++ Decimal.plain.text s.value

def Family.lines (f : Family) : List String :=
  ("# HELP " ++ f.name ++ " " ++ f.help) :: ("# TYPE " ++ f.name ++ " " ++ f.type)
    :: f.samples.map Sample.line

def lines (log : List Observation) : List String := (families log).flatMap Family.lines

end Metrics

end ScanService
