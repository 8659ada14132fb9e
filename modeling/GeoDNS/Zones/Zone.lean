import GeoDNS.Dns.Msg
import GeoDNS.Health.Status
import GeoDNS.Lib.Int64
import GeoDNS.Targeting.Targets

/-!
# Zones

The data of `zones/zone.go`: a zone maps label names to labels, and a label maps record types to
records. A slot of a Go `Records` slice is a pointer, and while a zone file is being read some slots
may be nil; once the loader is through it has dereferenced every one of them. `ZoneOf` and `LabelOf`
take the type of a slot as a parameter: `RawZone` is a zone being read, with slots `Option Record`, and
`Zone` one that has been read, with slots `Record`.

Weights and their sums are 64-bit integers, as Go's `int` is, and a sum may overflow; the documentation
asks for the weights of a label and type to stay below two billion. The metrics of a zone are kept out of
the zone and modelled with the activities that share them.
-/

namespace GeoDNS.Zones
open GeoDNS.Lib GeoDNS.Dns GeoDNS.Health GeoDNS.Targeting

/-- Go `Record`; the empty test name stands for none. -/
structure Record where
  rr : RR
  weight : Int64 := 0
  loc : Option Location := none
  test : String := ""

/-- Go `Label`, with slots of type `ρ`. -/
structure LabelOf (ρ : Type) where
  label : String
  maxHosts : Int
  ttl : Int
  records : GoMap RRType (List ρ)
  weight : GoMap RRType Int64
  closest : Bool
  test : Option HealthReference

/-- Go `ZoneOptions`. -/
structure ZoneOptions where
  serial : Int
  ttl : Int
  maxHosts : Int
  contact : String
  targeting : TargetOptions
  closest : Bool

/-- Go `ZoneLogging`. -/
structure ZoneLogging where
  statHat : Bool
  statHatAPI : String

/-- Go `Zone`, with slots of type `ρ`. -/
structure ZoneOf (ρ : Type) where
  origin : String
  labels : GoMap String (LabelOf ρ)
  labelCount : Nat
  options : ZoneOptions
  logging : Option ZoneLogging
  hasClosest : Bool
  parseIP : Bool

/-- Go `Label`. -/
abbrev Label := LabelOf Record

/-- Go `Zone`. -/
abbrev Zone := ZoneOf Record

/-- A label as it is read: an entry of its lists may be nil. -/
abbrev RawLabel := LabelOf (Option Record)

/-- A zone as it is read. -/
abbrev RawZone := ZoneOf (Option Record)

/-- A label that may answer a query, and the type of its records that may do so (Go `LabelMatch`).
    The label is a pointer and may be nil. -/
structure LabelMatch where
  label : Option Label
  type : RRType

/-- The library code the loader depends on: the vendored zone file parser, and `sort.Sort` applied to
    records by weight, which returns its argument in descending order, without a promise about
    records of equal weight. -/
structure Externals where
  newRR : String → Except String RR
  sortByWeight : List Record → List Record
  sortByWeight_perm : ∀ rs, (sortByWeight rs).Perm rs
  sortByWeight_sorted : ∀ rs, (sortByWeight rs).Pairwise (fun a b => b.weight ≤ a.weight)

section
variable {ρ : Type}

/-- The records of a type, nil if there are none (Go `label.Records[t]`). -/
def LabelOf.recordsOf (l : LabelOf ρ) (t : RRType) : Option (List ρ) :=
  l.records.lookup t

/-- The total weight of a type (Go `label.Weight[t]`). -/
def LabelOf.weightOf (l : LabelOf ρ) (t : RRType) : Int64 :=
  (l.weight.lookup t).getD 0

/-- Assign the records of a type. -/
def LabelOf.setRecords (l : LabelOf ρ) (t : RRType) (rs : List ρ) : LabelOf ρ :=
  { l with records := l.records.insert t rs }

/-- Assign the total weight of a type. -/
def LabelOf.setWeight (l : LabelOf ρ) (t : RRType) (w : Int64) : LabelOf ρ :=
  { l with weight := l.weight.insert t w }

/-- The records when those of a type are set. -/
lemma LabelOf.recordsOf_setRecords (l : LabelOf ρ) (t t' : RRType) (rs : List ρ) :
    (l.setRecords t rs).recordsOf t' = if t' = t then some rs else l.recordsOf t' :=
  GoMap.lookup_insert_eq_ite l.records t t' rs

/-- Weights are apart from the records. -/
@[simp] lemma LabelOf.recordsOf_setWeight (l : LabelOf ρ) (t t' : RRType) (w : Int64) :
    (l.setWeight t w).recordsOf t' = l.recordsOf t' := rfl

/-- The weights when that of a type is set. -/
lemma LabelOf.weightOf_setWeight (l : LabelOf ρ) (t t' : RRType) (w : Int64) :
    (l.setWeight t w).weightOf t' = if t' = t then w else l.weightOf t' := by
  simp only [weightOf, setWeight, GoMap.lookup_insert_eq_ite]
  split <;> rfl

/-- Records are apart from the weights. -/
@[simp] lemma LabelOf.weightOf_setRecords (l : LabelOf ρ) (t t' : RRType) (rs : List ρ) :
    (l.setRecords t rs).weightOf t' = l.weightOf t' := rfl

/-- A zone without labels (Go `NewZone`). -/
def newZone (name : String) : ZoneOf ρ where
  origin := name
  labels := ∅
  labelCount := countLabel name
  options :=
    { serial := 0
      ttl := 120
      maxHosts := 2
      contact := "hostmaster." ++ name
      targeting := targetGlobal + targetCountry + targetContinent
      closest := false }
  logging := none
  hasClosest := false
  parseIP := false

/-- The label that `AddLabel` puts into a zone with these options. -/
def newLabel (options : ZoneOptions) (k : String) : LabelOf ρ where
  label := toLower k
  maxHosts := options.maxHosts
  ttl := 0
  records := ∅
  weight := ∅
  closest := options.closest
  test := none

/-- A new label has no records. -/
@[simp] lemma recordsOf_newLabel (options : ZoneOptions) (k : String) (t : RRType) :
    (newLabel options k : LabelOf ρ).recordsOf t = none := rfl

/-- A new label has no weights. -/
@[simp] lemma weightOf_newLabel (options : ZoneOptions) (k : String) (t : RRType) :
    (newLabel options k : LabelOf ρ).weightOf t = 0 := rfl

/-- Put an empty label into the zone (Go `Zone.AddLabel`). -/
def ZoneOf.addLabel (z : ZoneOf ρ) (k : String) : ZoneOf ρ :=
  { z with labels := z.labels.insert (toLower k) (newLabel z.options k) }

end

/-- The first record of a type (Go `Label.FirstRR`). -/
def LabelOf.firstRR (l : Label) (t : RRType) : Res RR :=
  match l.recordsOf t with
  | some (r :: _) => .ok r.rr
  | _ => .panic .index

/-- The zone's `SOA` record (Go `Zone.SoaRR`). -/
def ZoneOf.soaRR (z : Zone) : Res RR :=
  match z.labels.lookup "" with
  | some l => l.firstRR typeSOA
  | none => .panic .nilDeref

/-- The text of the zone's `SOA` record (in Go `Zone.addSOA`). -/
def soaText (origin : String) (options : ZoneOptions) (primaryNs : String) : String :=
  let ttl := Int64.ofInt options.ttl * 10
  let ttl := if ttl > 3600 then 3600 else ttl
  let ttl := if ttl = 0 then 600 else ttl
  origin ++ ". " ++ itoa ttl.toInt ++ " IN SOA " ++ primaryNs ++ " " ++ options.contact ++ " " ++
    itoa options.serial ++ " 5400 5400 1209600 3600"

/-- The primary name server of a label: that of its first `NS` record, if it has an entry for those
    (in Go `Zone.addSOA`). -/
def primaryNs (l : Label) : Res String :=
  match l.recordsOf typeNS with
  | none => .ok "ns"
  | some [] => .panic .index
  | some (r :: _) =>
    match r.rr.data with
    | .ns ns => .ok ns
    | _ => .panic .typeAssert

/-- Add the `SOA` record to the label of the zone itself (Go `Zone.addSOA`). -/
def addSOA (ext : Externals) (z : Zone) : Res Zone := do
  let label := (z.labels.lookup "").getD (newLabel z.options "")
  let ns ← primaryNs label
  match ext.newRR (soaText z.origin z.options ns) with
  | .error _ => .panic (.explicit "Could not setup SOA")
  | .ok rr =>
    return { z with labels := z.labels.insert "" (label.setRecords typeSOA [{ rr := rr }]) }

end GeoDNS.Zones
