import GeoDNS.Lib.Float64
import GeoDNS.Lib.IP
import Mathlib.Algebra.Order.Field.Rat

/-!
# Geographic lookups

`targeting/geo/geo.go`: what a geo database answers about an address, and how far two places are
apart. A provider is an arbitrary implementation of the `Provider` interface. Distances come from
the vendored `s2` package in floating point; here they are exact numbers from an arbitrary measure
that, as an angle in degrees, never exceeds `MAX_DISTANCE`.
-/

namespace GeoDNS.Targeting
open GeoDNS.Lib

/-- A place on earth (Go `geo.Location`). -/
structure Location where
  country : String
  continent : String
  regionGroup : String
  region : String
  latitude : Float64
  longitude : Float64
  netmask : Int

/-- A geo database (Go `geo.Provider`). -/
structure Provider where
  -- country, continent and the length of the prefix they hold for
  getCountry : IP → String × String × Int
  -- the network's name, the length of the prefix it holds for, and an error
  getASN : IP → String × Int × Option String
  -- the place, or nil, and an error
  getLocation : IP → Option Location × Option String

/-- Go `MAX_DISTANCE`. -/
def maxDistance : Rat := 360

/-- A measure of the angle between two places, in degrees. -/
structure Geodesy where
  degrees : Location → Location → Rat
  nonneg : ∀ a b, 0 ≤ degrees a b
  le_max : ∀ a b, degrees a b ≤ maxDistance

/-- The distance to a place, the largest one if there is none (Go `Location.Distance`). -/
def Geodesy.distance (geod : Geodesy) (l : Location) : Option Location → Rat
  | none => maxDistance
  | some l' => geod.degrees l l'

/-- No distance is larger than the largest. -/
lemma Geodesy.distance_le (geod : Geodesy) (l : Location) (l' : Option Location) :
    geod.distance l l' ≤ maxDistance := by
  cases l' with
  | none => exact le_refl _
  | some l' => exact geod.le_max l l'

/-- No distance is negative. -/
lemma Geodesy.distance_nonneg (geod : Geodesy) (l : Location) (l' : Option Location) :
    0 ≤ geod.distance l l' := by
  cases l' with
  | none => exact (by decide +kernel : (0 : Rat) ≤ 360)
  | some l' => exact geod.nonneg l l'

end GeoDNS.Targeting
