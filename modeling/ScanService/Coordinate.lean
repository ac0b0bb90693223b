/-! Points on the globe: which are valid, how far apart two are, and the extents of a box around a
circle. Angles are in degrees and lengths in metres. -/
namespace ScanService

/-- A point, its angles given in the numbers `R`. -/
structure Coordinate (R : Type) where
  lat : R
  lng : R
deriving Repr, DecidableEq

/-- What a search by distance needs to know of the globe. The extents are those of a box that holds
every point within the radius of the centre; a longitude extent of 360 does not bound. -/
structure Geometry (R : Type) where
  distance : Coordinate R → Coordinate R → R
  extents : Coordinate R → R → R × R

/-- The functions of angles, in radians, that the formulas need. -/
structure Trigonometry where
  sin : Float → Float
  cos : Float → Float
  asin : Float → Float

def Trigonometry.machine : Trigonometry := ⟨Float.sin,Float.cos,Float.asin⟩

namespace Coordinate

def earthRadius : Float := 6371008.8

def pi : Float := 3.14159265358979323846

def radians (degrees : Float) : Float := degrees * (pi / 180.0)

def degrees (radians : Float) : Float := radians * (180.0 / pi)

/-- Whether the point lies on the globe; both ends of both ranges do. -/
def valid (c : Coordinate Float) : Bool :=
  -90.0 ≤ c.lat && c.lat ≤ 90.0 && -180.0 ≤ c.lng && c.lng ≤ 180.0

/-- The lesser of a number and a bound, and the bound for a value that is no number. -/
def capped (x bound : Float) : Float := if x < bound then x else bound

/-- The great-circle distance, by the haversine formula. -/
def distance (a b : Coordinate Float) (τ : Trigonometry := .machine) : Float :=
  let φ := radians a.lat
  let ψ := radians b.lat
  let s := τ.sin ((ψ - φ) / 2.0)
  let t := τ.sin (radians (b.lng - a.lng) / 2.0)
  let h := s * s + τ.cos φ * τ.cos ψ * (t * t)
  2.0 * earthRadius * τ.asin (capped (Float.sqrt h) 1.0)

/-- The extents in latitude and longitude of a box around the circle of a radius; one that reaches a
pole has every longitude. -/
def extents (c : Coordinate Float) (radius : Float) (τ : Trigonometry := .machine) :
    Float × Float :=
  let angle := radius / earthRadius
  let dlat := degrees angle
  if 90.0 ≤ Float.abs c.lat + dlat then (dlat,360.0)
  else
    let ratio := τ.sin angle / τ.cos (radians c.lat)
    (dlat,if 1.0 ≤ ratio then 360.0 else degrees (τ.asin ratio))

end Coordinate

/-- The globe as a sphere, for some functions of angles. -/
def Geometry.globe (τ : Trigonometry) : Geometry Float where
  distance a b := a.distance b τ
  extents c radius := c.extents radius τ

def Geometry.sphere : Geometry Float := .globe .machine

end ScanService
