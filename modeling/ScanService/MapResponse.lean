import ScanService.ScanObject
/-! The map as the remote service reports it, and the objects that it stands for. -/
namespace ScanService

structure WildCreature where
  encounter : UInt64
  species : UInt32
  lat : Float
  lng : Float
  hiddenIn : Int

/-- A creature drawn to a checkpoint until a time in milliseconds. -/
structure Lure where
  encounter : UInt64
  species : UInt32
  expires : Int

inductive FortKind
  | checkpoint
  | stronghold
deriving DecidableEq, Repr

structure Fort where
  id : String
  kind : FortKind
  lat : Float
  lng : Float
  team : UInt8
  modified : Bool
  lure : Option Lure

structure MapCell where
  wild : List WildCreature := []
  forts : List Fort := []

structure MapResponse where
  cells : List MapCell := []

namespace MapResponse

/-! ### Data form -/

def encounterJson (n : UInt64) : Json := .nat n.toNat

def speciesJson (n : UInt32) : Json := .nat n.toNat

def wildToJson (w : WildCreature) : Json :=
  .obj [("encounter_id",encounterJson w.encounter),("species",speciesJson w.species),
    ("lat",.float w.lat),("lng",.float w.lng),("time_till_hidden_ms",.int w.hiddenIn)]

def lureToJson (l : Lure) : Json :=
  .obj [("encounter_id",encounterJson l.encounter),("active_species",speciesJson l.species),
    ("expires_at_ms",.int l.expires)]

def fortKindName : FortKind → String
  | .checkpoint => "checkpoint"
  | .stronghold => "stronghold"

def fortToJson (f : Fort) : Json :=
  .obj [("id",.str f.id),("kind",.str (fortKindName f.kind)),("lat",.float f.lat),
    ("lng",.float f.lng),("owned_by_team",.nat f.team.toNat),("active_modifier",.bool f.modified),
    ("lure",Json.opt lureToJson f.lure)]

def cellToJson (c : MapCell) : Json :=
  .obj [("wild_creatures",.arr (c.wild.map wildToJson)),("forts",.arr (c.forts.map fortToJson))]

def toJson (r : MapResponse) : Json := .obj [("cells",.arr (r.cells.map cellToJson))]

def wildOfJson? (j : Json) : Option WildCreature := do
  let fs ← Json.record ["encounter_id","species","lat","lng","time_till_hidden_ms"] j
  match fs with
  | [encounter,species,lat,lng,hiddenIn] =>
    return ⟨← encounter.required Json.asUInt64,← species.required Json.asUInt32,
      ← lat.required Json.asFloat,← lng.required Json.asFloat,← hiddenIn.required Json.asInt64⟩
  | _ => none

def lureOfJson? (j : Json) : Option Lure := do
  let fs ← Json.record ["encounter_id","active_species","expires_at_ms"] j
  match fs with
  | [encounter,species,expires] =>
    return ⟨← encounter.required Json.asUInt64,← species.required Json.asUInt32,
      ← expires.required Json.asInt64⟩
  | _ => none

def fortKindOfJson? : Json → Option FortKind
  | .str s => [FortKind.checkpoint,.stronghold].find? (fortKindName · == s)
  | _ => none

def fortOfJson? (j : Json) : Option Fort := do
  let fs ← Json.record ["id","kind","lat","lng","owned_by_team","active_modifier","lure"] j
  match fs with
  | [id,kind,lat,lng,team,modified,lure] =>
    return ⟨← id.required Json.asText,← kind.required fortKindOfJson?,← lat.required Json.asFloat,
      ← lng.required Json.asFloat,← team.required Json.asUInt8,← modified.required Json.asBool,
      ← lure.optional lureOfJson?⟩
  | _ => none

def cellOfJson? (j : Json) : Option MapCell := do
  let fs ← Json.record ["wild_creatures","forts"] j
  match fs with
  | [wild,forts] =>
    return ⟨← wild.orElse (Json.asList wildOfJson?) [],← forts.orElse (Json.asList fortOfJson?) []⟩
  | _ => none

def ofJson? (j : Json) : Option MapResponse := do
  let fs ← Json.record ["cells"] j
  match fs with
  | [cells] => return ⟨← cells.orElse (Json.asList cellOfJson?) []⟩
  | _ => none

/-! ### Objects -/

/-- The id of the creature met in an encounter: the encounter's number in base 36. -/
def encounterKey (n : UInt64) : String := String.ofList (Text.Radix.chars 36 n.toNat)

/-- The second in which a creature hides that is seen at `now`, in milliseconds, and hides so many
milliseconds later. A time already past counts as none, and no time is after the last one. -/
def hidingTime (now hiddenIn : Int) : Int := min (now + max 0 hiddenIn) 0x7FFFFFFFFFFFFFFF / 1000

def wildObject (now : Int) (w : WildCreature) : ScanObject Float :=
  .creature (encounterKey w.encounter) w.species ⟨w.lat,w.lng⟩ (hidingTime now w.hiddenIn)

def lureObject (place : Coordinate Float) (l : Lure) : ScanObject Float :=
  .creature (encounterKey l.encounter) l.species place (l.expires / 1000)

/-- A fort, after the creature that its lure has drawn if it is a checkpoint. -/
def fortObjects (f : Fort) : List (ScanObject Float) :=
  let place : Coordinate Float := ⟨f.lat,f.lng⟩
  match f.kind with
  | .checkpoint => (f.lure.map (lureObject place)).toList ++ [.checkpoint f.id place f.modified]
  | .stronghold => [.stronghold f.id place f.team]

def cellObjects (now : Int) (c : MapCell) : List (ScanObject Float) :=
  c.wild.map (wildObject now) ++ c.forts.flatMap fortObjects

/-- The objects of a map seen at `now`, in milliseconds. -/
def objects (r : MapResponse) (now : Int) : List (ScanObject Float) :=
  r.cells.flatMap (cellObjects now)

end MapResponse

end ScanService
