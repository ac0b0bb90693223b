import ScanService.Failure
import ScanService.ScanObject
/-! The objects found so far, one to an id, and the search for those near a point. -/
namespace ScanService

/-- The stored objects in the order in which their ids were first written. -/
structure ObjectTable (R : Type) where
  rows : List (ScanObject R)
deriving Repr

/-- A range of latitudes, and one of longitudes unless all are meant. -/
structure Box (R : Type) where
  south : R
  north : R
  sides : Option (R × R)

namespace Box

variable {R : Type} [Add R] [Sub R] [Neg R] [OfNat R 180] [LE R] [DecidableLE R]

/-- The box around a circle. One that would cross the antimeridian has every longitude. -/
def around (g : Geometry R) (center : Coordinate R) (radius : R) : Box R :=
  let d := g.extents center radius
  { south := center.lat - d.1
    north := center.lat + d.1
    sides :=
      if -180 ≤ center.lng - d.2 ∧ center.lng + d.2 ≤ 180 then
        some (center.lng - d.2,center.lng + d.2)
      else none }

def holds (b : Box R) (c : Coordinate R) : Bool :=
  b.south ≤ c.lat && c.lat ≤ b.north &&
    match b.sides with
    | none => true
    | some (west,east) => west ≤ c.lng && c.lng ≤ east

end Box

namespace ObjectTable

def empty {R : Type} : ObjectTable R := ⟨[]⟩

section Query

variable {R : Type} [Add R] [Sub R] [Neg R] [OfNat R 0] [OfNat R 180] [LE R] [DecidableLE R]
  [LT R] [DecidableLT R]

/-- The order in which rows are read: by kind, then by latitude, then by longitude. -/
def rowLe (a b : ScanObject R) : Bool :=
  a.kind.code < b.kind.code ||
    a.kind.code = b.kind.code &&
      (a.lat < b.lat || !(decide (b.lat < a.lat)) && !(decide (b.lng < a.lng)))

/-- The rows of the wanted kinds that are live and lie in a box, in the order of rows. -/
def candidates (t : ObjectTable R) (box : Box R) (kinds : List ObjectKind) (now : Int) :
    List (ScanObject R) :=
  (t.rows.filter fun o => kinds.contains o.kind && o.live now && box.holds o.place).mergeSort rowLe

/-- The live objects of the wanted kinds within a radius of a point, the nearest first; objects at
equal distance stay in the order of rows. -/
def query (t : ObjectTable R) (g : Geometry R) (center : Coordinate R) (radius : R)
    (kinds : List ObjectKind) (now : Int) : List (ScanObject R) :=
  if kinds.isEmpty ∨ radius < 0 then []
  else
    let near := (t.candidates (Box.around g center radius) kinds now).filter fun o =>
      g.distance center o.place ≤ radius
    near.mergeSort fun a b => g.distance center a.place ≤ g.distance center b.place

end Query

variable {R : Type}

def get? (t : ObjectTable R) (id : String) : Option (ScanObject R) := t.rows.find? (·.id = id)

def size (t : ObjectTable R) : Nat := t.rows.length

def expired (threshold : Int) (o : ScanObject R) : Bool :=
  o.kind = .creature && o.expiry ≠ 0 && o.expiry < threshold

/-- Removes the creatures that expire before a threshold, and counts them. -/
def purge (t : ObjectTable R) (threshold : Int) : ObjectTable R × Nat :=
  (⟨t.rows.filter fun o => !expired threshold o⟩,(t.rows.filter (expired threshold)).length)

/-- The form of a number in the table: zero has no sign there. -/
def unsignedZero (x : Float) : Float := if x.toBits = 0x8000000000000000 then 0.0 else x

def row (o : ScanObject Float) : ScanObject Float :=
  { o with lat := unsignedZero o.lat, lng := unsignedZero o.lng }

def missingColumn (o : ScanObject Float) : Option String :=
  if o.lat.isNaN then some "objects.lat" else if o.lng.isNaN then some "objects.lng" else none

/-- Puts a row in the place of the one with its id, or at the end if there is none. -/
def upsert (o : ScanObject Float) : List (ScanObject Float) → List (ScanObject Float)
  | [] => [o]
  | p :: ps => if p.id = o.id then o :: ps else p :: upsert o ps

/-- Writes an object: a creature only under a new id, the other kinds over what the id has. -/
def write (t : ObjectTable Float) (o : ScanObject Float) :
    ObjectTable Float × Except StoreFailure Unit :=
  match missingColumn o with
  | some column => (t,.error (.notNull column))
  | none =>
    if o.kind.ephemeral && (t.get? o.id).isSome then (t,.error (.duplicate "object" o.id))
    else (⟨upsert (row o) t.rows⟩,.ok ())

end ObjectTable

end ScanService
