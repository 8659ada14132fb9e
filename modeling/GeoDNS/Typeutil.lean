import GeoDNS.Lib.Json
import GeoDNS.Lib.Strings

/-!
# Conversions of loosely typed configuration values

`typeutil/typeutil.go`: numbers, texts and truth values may be written in each other's form in a zone
file. A value of any other kind makes the conversion panic, which the zone loader recovers and turns
into a rejected file.
-/

namespace GeoDNS.Typeutil
open GeoDNS.Lib

/-- Go `typeutil.ToBool`. -/
def toBool : Json → Res Bool
  | .bool b => .ok b
  | .str s => .ok (s = "true" ∨ s = "1")
  | .num f => .ok f.isPos
  | _ => .panic (.explicit "Can't convert value")

/-- Go `typeutil.ToString`. -/
def toString : Json → Res String
  | .str s => .ok s
  | .num f => .ok f.format
  | _ => .panic (.explicit "Can't convert value")

/-- Go `typeutil.ToInt`. -/
def toInt : Json → Res Int
  | .str s => Res.get (atoi s) (.explicit "Error converting weight to integer")
  | .num f => .ok f.toInt
  | _ => .panic (.explicit "Can't convert value")

/-- A number that is read is a 64-bit integer. -/
lemma toInt_range {v : Json} {n : Int} (h : toInt v = .ok n) : -2 ^ 63 ≤ n ∧ n < 2 ^ 63 := by
  cases v with
  | str s =>
    have read : atoi s = some n := Res.get_eq_ok.mp h
    unfold atoi at read
    simpa using (Option.filter_eq_some_iff.mp read).2
  | num f =>
    obtain rfl : f.toInt = n := Res.ok.inj h
    unfold Float64.toInt
    split
    · next fits => exact fits
    · omega
  | _ => cases h

end GeoDNS.Typeutil
