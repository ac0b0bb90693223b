import ScanService.Coordinate
import ScanService.Json.Decode
/-! What a scan finds: creatures that come and go, checkpoints and strongholds that stay. -/
namespace ScanService

inductive ObjectKind
  | creature
  | checkpoint
  | stronghold
deriving DecidableEq, Repr

namespace ObjectKind

def all : List ObjectKind := [creature,checkpoint,stronghold]

def name : ObjectKind → String
  | creature => "creature"
  | checkpoint => "checkpoint"
  | stronghold => "stronghold"

def code : ObjectKind → Nat
  | creature => 1
  | checkpoint => 2
  | stronghold => 3

def ofName? (s : String) : Option ObjectKind := all.find? (·.name == s)

def ofCode? (n : Int) : Option ObjectKind := all.find? fun k => (k.code : Int) = n

/-- Creatures are written once and expire; the other kinds are kept up to date. -/
def ephemeral (k : ObjectKind) : Bool := k = creature

theorem ofCode?_code (k : ObjectKind) : ofCode? k.code = some k := by cases k <;> decide

end ObjectKind

/-- An object at a place given in the numbers `R`. `expiry` is in seconds, 0 for never. -/
structure ScanObject (R : Type) where
  kind : ObjectKind
  id : String
  lat : R
  lng : R
  expiry : Int
  species : Option UInt32 := none
  team : Option UInt8 := none
  lured : Option Bool := none
deriving Repr

namespace ScanObject

variable {R : Type}

def creature (id : String) (species : UInt32) (place : Coordinate R) (expiry : Int) :
    ScanObject R :=
  { kind := .creature, id, lat := place.lat, lng := place.lng, expiry, species := some species }

def checkpoint (id : String) (place : Coordinate R) (lured : Bool) : ScanObject R :=
  { kind := .checkpoint, id, lat := place.lat, lng := place.lng, expiry := 0, lured := some lured }

def stronghold (id : String) (place : Coordinate R) (team : UInt8) : ScanObject R :=
  { kind := .stronghold, id, lat := place.lat, lng := place.lng, expiry := 0, team := some team }

def place (o : ScanObject R) : Coordinate R := ⟨o.lat,o.lng⟩

def live (o : ScanObject R) (now : Int) : Bool := o.expiry = 0 || now < o.expiry

def member {α : Type} (name : String) (f : α → Json) : Option α → List (String × Json)
  | none => []
  | some a => [(name,f a)]

def toJson (o : ScanObject Float) : Json :=
  .obj ([("type",.str o.kind.name),("id",.str o.id),("lat",.float o.lat),("lng",.float o.lng),
      ("expiry",.int o.expiry)]
    ++ member "species" (fun n : UInt32 => Json.nat n.toNat) o.species
    ++ member "team" (fun n : UInt8 => Json.nat n.toNat) o.team
    ++ member "lured" Json.bool o.lured)

def ofJson? (j : Json) : Option (ScanObject Float) := do
  let fs ← Json.record ["type","id","lat","lng","expiry","species","team","lured"] j
  match fs with
  | [kind,id,lat,lng,expiry,species,team,lured] =>
    return ⟨← kind.required fun k => Json.asText k >>= ObjectKind.ofName?,
      ← id.required Json.asText,← lat.required Json.asFloat,← lng.required Json.asFloat,
      ← expiry.required Json.asInt64,← species.orElse (Json.nullable Json.asUInt32) none,
      ← team.orElse (Json.nullable Json.asUInt8) none,
      ← lured.orElse (Json.nullable Json.asBool) none⟩
  | _ => none

end ScanObject

end ScanService
