import ScanService.Json.Decode
/-! The two kinds of resource that a session needs: an identity to log in as, and an egress to go
out through. -/
namespace ScanService

structure Identity where
  name : String
  secret : String
  provider : String := "ptc"
  used : Bool := false
  banned : Bool := false
deriving DecidableEq, Repr

namespace Identity

def claimable (i : Identity) : Bool := !i.used && !i.banned

def toJson (i : Identity) : Json :=
  .obj [("name",.str i.name),("provider",.str i.provider),("used",.bool i.used),
    ("banned",.bool i.banned)]

def ofJson? (j : Json) : Option Identity := do
  let fs ← Json.record ["name","secret","provider","used","banned"] j
  match fs with
  | [name,secret,provider,used,banned] =>
    return ⟨← name.required Json.asText,← secret.required Json.asText,
      ← provider.required Json.asText,← used.required Json.asBool,← banned.required Json.asBool⟩
  | _ => none

end Identity

structure Egress where
  id : Int
  inUse : Bool := false
  dead : Bool := false
deriving DecidableEq, Repr

namespace Egress

def claimable (e : Egress) : Bool := !e.inUse && !e.dead

def toJson (e : Egress) : Json :=
  .obj [("id",.int e.id),("in_use",.bool e.inUse),("dead",.bool e.dead)]

end Egress

/-- Counts over the identities; `used` counts those that are not banned. -/
structure IdentityStats where
  total : Nat
  used : Nat
  banned : Nat
deriving DecidableEq, Repr

def IdentityStats.toJson (s : IdentityStats) : Json :=
  .obj [("total",.nat s.total),("used",.nat s.used),("banned",.nat s.banned)]

structure EgressStats where
  alive : Nat
  aliveUsed : Nat
deriving DecidableEq, Repr

def EgressStats.toJson (s : EgressStats) : Json :=
  .obj [("alive",.nat s.alive),("alive_used",.nat s.aliveUsed)]

structure StatusEntry where
  account : String
  egress : Int
deriving DecidableEq, Repr

namespace StatusEntry

def toJson (e : StatusEntry) : Json :=
  .obj [("accountName",.str e.account),("proxyId",.int e.egress)]

def ofJson? (j : Json) : Option StatusEntry := do
  let fs ← Json.record ["accountName","proxyId"] j
  match fs with
  | [account,egress] =>
    return ⟨← account.required Json.asText,← egress.required Json.asInt64⟩
  | _ => none

def listToJson (es : List StatusEntry) : Json := .arr (es.map toJson)

def listOfJson? : Json → Option (List StatusEntry) := Json.asList ofJson?

end StatusEntry

end ScanService
