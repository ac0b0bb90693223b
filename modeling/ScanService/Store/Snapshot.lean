import ScanService.Json.Reader
import ScanService.Store.Basic
/-! The records of a store as one text, in which they are kept between runs. Coordinates are written
by their bits, so that every number comes back as it was. -/
namespace ScanService.Store

def mark : String := "scan store\n"

def rowToJson (o : ScanObject Float) : Json :=
  .obj [("type",.str o.kind.name),("id",.str o.id),("lat",.nat o.lat.toBits.toNat),
    ("lng",.nat o.lng.toBits.toNat),("expiry",.int o.expiry),
    ("species",Json.opt (fun n : UInt32 => .nat n.toNat) o.species),
    ("team",Json.opt (fun n : UInt8 => .nat n.toNat) o.team),("lured",Json.opt .bool o.lured)]

def floatOfJson? (j : Json) : Option Float := (Json.asUInt64 j).map Float.ofBits

def rowOfJson? (j : Json) : Option (ScanObject Float) := do
  let fs ← Json.record ["type","id","lat","lng","expiry","species","team","lured"] j
  match fs with
  | [kind,id,lat,lng,expiry,species,team,lured] =>
    return ⟨← kind.required fun k => Json.asText k >>= ObjectKind.ofName?,
      ← id.required Json.asText,← lat.required floatOfJson?,← lng.required floatOfJson?,
      ← expiry.required Json.asInt64,← species.required (Json.nullable Json.asUInt32),
      ← team.required (Json.nullable Json.asUInt8),← lured.required (Json.nullable Json.asBool)⟩
  | _ => none

def identityToJson (i : Identity) : Json :=
  .obj [("name",.str i.name),("secret",.str i.secret),("provider",.str i.provider),
    ("used",.bool i.used),("banned",.bool i.banned)]

def egressOfJson? (j : Json) : Option Egress := do
  let fs ← Json.record ["id","in_use","dead"] j
  match fs with
  | [id,inUse,dead] =>
    return ⟨← id.required Json.asInt64,← inUse.required Json.asBool,← dead.required Json.asBool⟩
  | _ => none

def toText (s : Store) : String :=
  mark ++ (Json.obj [("identities",.arr (s.roster.identities.map identityToJson)),
    ("egress",.arr (s.roster.egresses.map Egress.toJson)),
    ("objects",.arr (s.objects.rows.map rowToJson))]).text

def ofText? (text : String) : Option Store :=
  if mark.toList.isPrefixOf text.toList then do
    let j ← Json.ofText (String.ofList (text.toList.drop mark.length))
    match ← Json.record ["identities","egress","objects"] j with
    | [identities,egresses,objects] =>
      return { Store.empty with
        roster := ⟨← identities.required (Json.asList Identity.ofJson?),
          ← egresses.required (Json.asList egressOfJson?)⟩
        objects := ⟨← objects.required (Json.asList rowOfJson?)⟩ }
    | _ => none
  else none

end ScanService.Store
