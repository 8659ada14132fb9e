import GeoDNS.Zones.Zone

/-!
# Reading zone files

`zones/reader.go`: from a decoded JSON document to a zone. Everything that goes wrong on the way is a
panic, which `ReadZoneFile` recovers and reports as an error, so a zone is *accepted* when the functions
here return.

The loops over JSON objects range over Go maps; the order of the entries of a `GoMap` stands for the
order Go happens to choose. The second pass of `setupZoneData` is one loop in the source, which for each
label sets the TTLs and default weights of its records and adds the missing labels above it. The labels
it adds have no records, so the two halves do not interfere and are two traversals here.
-/

namespace GeoDNS.Zones
open GeoDNS.Lib GeoDNS.Dns GeoDNS.Health GeoDNS.Targeting

/-- The record types a zone file may name. -/
def recordTypes : String → Option RRType
  | "a" => some typeA
  | "aaaa" => some typeAAAA
  | "alias" => some typeMF
  | "cname" => some typeCNAME
  | "mx" => some typeMX
  | "ns" => some typeNS
  | "txt" => some typeTXT
  | "spf" => some typeSPF
  | "srv" => some typeSRV
  | "ptr" => some typePTR
  | _ => none

/-- An element of the record list of a type: a JSON value, or the `[]string` that an entry of the
    object syntax is turned into. -/
inductive Entry where
  | json (j : Json)
  | pair (k v : String)

/-- The record list of a type (the `switch rdata.(type)` of the source). -/
def recordEntries : Json → Res (List Entry)
  | .obj l => (Json.fields l).entries.mapM (fun e =>
      match e.2 with
      | .null => .ok (.pair e.1 "")
      | .str s => .ok (.pair e.1 s)
      | _ => .panic .typeAssert)
  | .str s => .ok [.json (.str s)]
  | j => do
    let l ← j.asArr
    return l.map .json

/-- Go `getStringWeight`. -/
def getStringWeight (rec : List Json) : Res (String × Int) := do
  let first ← Res.get rec.head? .index
  let str ← first.asStr
  match rec.tail.head? with
  | some (.str w) =>
    let weight ← Res.get (atoi w) (.explicit "Error converting weight to integer")
    return (str, weight)
  | some (.num f) => return (str, f.toInt)
  | _ => return (str, 0)

/-- A text as Go's `%q` prints it. -/
def quote (s : String) : String :=
  "\"" ++ String.ofList (s.toList.flatMap (fun c =>
    if c = '"' ∨ c = '\\' then ['\\', c] else [c])) ++ "\""

/-- The field of the object form that holds the data of an address or pointer record. -/
def addressKey (t : RRType) : String :=
  if t = typeA then "a" else if t = typeAAAA then "aaaa" else "ptr"

/-- Text, weight and test of an address or pointer record. -/
def addressFields (t : RRType) (test : String) : Entry → Res (String × Int × String)
  | .json (.arr l) => do
    let (ip, weight) ← getStringWeight l
    return (ip, weight, test)
  | .json (.obj l) => do
    let r := Json.fields l
    let ip ← (r.lookup "ip").elim (.ok "") Json.asStr
    let ip ← (if ip = "" ∨ t = typePTR then (Json.getKey r (addressKey t)).asStr else .ok ip)
    let weight ← (r.lookup "weight").elim (.ok 0) Typeutil.toInt
    let test ← (r.lookup "health").elim (.ok test) Typeutil.toString
    return (ip, weight, test)
  | _ => .ok ("", 0, test)

/-- A record of type `A`, `AAAA` or `PTR`. -/
def readAddress (t : RRType) (h : Header) (dk test : String) (e : Entry) : Res Record := do
  let (ip, weight, test) ← addressFields t test e
  if t = typePTR then
    return { rr := ⟨h, .ptr ip⟩, weight := Int64.ofInt weight, test := test }
  else if t = typeA then
    let x ← Res.get (IP.parseIP ip)
      (.explicit ("Bad A record " ++ quote ip ++ " for " ++ quote dk))
    return { rr := ⟨h, .a x⟩, weight := Int64.ofInt weight, test := test }
  else
    let x ← Res.get (IP.parseIP ip)
      (.explicit ("Bad AAAA record " ++ quote ip ++ " for " ++ quote dk))
    return { rr := ⟨h, .aaaa x⟩, weight := Int64.ofInt weight, test := test }

/-- The type assertion of a record list element to an object. -/
def Entry.asObj : Entry → Res (GoMap String Json)
  | .json j => j.asObj
  | .pair _ _ => .panic .typeAssert

/-- A number that may be left out or null; its default is 0. -/
def optionalInt (r : GoMap String Json) (k : String) : Res Int :=
  match Json.getKey r k with
  | .null => .ok 0
  | j => Typeutil.toInt j

/-- A record of type `MX`. -/
def readMX (h : Header) (test : String) (e : Entry) : Res Record := do
  let r ← e.asObj
  let mx ← (Json.getKey r "mx").asStr
  let mx := if endsWith mx "." then mx else mx ++ "."
  let weight ← optionalInt r "weight"
  let pref ← optionalInt r "preference"
  return { rr := ⟨h, .mx (UInt16.ofInt pref) mx⟩, weight := Int64.ofInt weight, test := test }

/-- A record of type `SRV`. -/
def readSRV (origin : String) (h : Header) (test : String) (e : Entry) : Res Record := do
  let r ← e.asObj
  let target ← (Json.getKey r "target").asStr
  let target := if isFqdn target then target else target ++ "." ++ origin
  let srvWeight ← optionalInt r "srv_weight"
  let port ← optionalInt r "port"
  let priority ← optionalInt r "priority"
  return {
    rr := ⟨h, .srv (UInt16.ofInt priority) (UInt16.ofInt srvWeight) (UInt16.ofInt port) target⟩
    test := test }

/-- Target, weight and test of a `CNAME` record. -/
def cnameFields (test : String) : Entry → Res (String × Int × String)
  | .json (.str s) => .ok (s, 0, test)
  | .json (.arr l) => do
    let (target, weight) ← getStringWeight l
    return (target, weight, test)
  | .json (.obj l) => do
    let r := Json.fields l
    let target ← (r.lookup "cname").elim (.ok "") Typeutil.toString
    let weight ← (r.lookup "weight").elim (.ok 0) Typeutil.toInt
    let test ← (r.lookup "health").elim (.ok test) Typeutil.toString
    return (target, weight, test)
  | _ => .ok ("", 0, test)

/-- A record of type `CNAME`. -/
def readCNAME (origin : String) (h : Header) (test : String) (e : Entry) : Res Record := do
  let (target, weight, test) ← cnameFields test e
  let target := if isFqdn target then target else target ++ "." ++ origin
  return { rr := ⟨h, .cname (fqdn target)⟩, weight := Int64.ofInt weight, test := test }

/-- An alias; its target stays relative to the zone. -/
def readMF (h : Header) (test : String) : Entry → Res Record
  | .json j => do
    let mf ← j.asStr
    return { rr := ⟨h, .mf mf⟩, test := test }
  | .pair _ _ => .panic .typeAssert

/-- A record of type `NS`. -/
def readNS (h : Header) (test : String) : Entry → Res Record
  | .json (.str s) => .ok { rr := ⟨h, .ns (fqdn s)⟩, test := test }
  | .pair ns _ => .ok { rr := ⟨h, .ns (fqdn ns)⟩, test := test }
  | _ => .panic (.explicit "Unrecognized NS format/syntax")

/-- Text and weight of a `TXT` or `SPF` record, whose object form has the text under `key`. -/
def textFields (key : String) : Entry → Res (String × Int)
  | .json (.str s) => .ok (s, 0)
  | .json (.obj l) => do
    let r := Json.fields l
    let weight ← (r.lookup "weight").elim (.ok 0) Typeutil.toInt
    let txt ← (r.lookup key).elim (.ok "") Json.asStr
    return (txt, weight)
  | _ => .ok ("", 0)

/-- A record of type `TXT` or `SPF`; one with an empty text is skipped and leaves its slot nil. -/
def readText (key : String) (mk : List String → RData) (h : Header) (test : String) (e : Entry) :
    Res (Option Record) := do
  let (txt, weight) ← textFields key e
  if txt = "" then return none
  else return some { rr := ⟨h, mk [txt]⟩, weight := Int64.ofInt weight, test := test }

/-- The health test a record names for itself. -/
def overrideTest : Entry → String
  | .json (.obj l) =>
    match (Json.fields l).lookup "health" with
    | some (.str h) => h
    | _ => ""
  | _ => ""

/-- The owner name of the records of a label. -/
def ownerName (origin label : String) : String :=
  if label = "" then origin ++ "." else label ++ "." ++ origin ++ "."

/-- One slot of the records of type `t` (the body of the record loop of `setupZoneData`). -/
def readRecord (origin label dk : String) (t : RRType) (e : Entry) : Res (Option Record) :=
  let h : Header := { name := ownerName origin label, rrtype := t, cls := classINET }
  let test := overrideTest e
  if t = typeA ∨ t = typeAAAA ∨ t = typePTR then some <$> readAddress t h dk test e
  else if t = typeMX then some <$> readMX h test e
  else if t = typeSRV then some <$> readSRV origin h test e
  else if t = typeCNAME then some <$> readCNAME origin h test e
  else if t = typeMF then some <$> readMF h test e
  else if t = typeNS then some <$> readNS h test e
  else if t = typeTXT then readText "txt" .txt h test e
  else if t = typeSPF then readText "spf" .spf h test e
  else .panic (.explicit "Don't know how to handle this type")

/-- The sum of the weights of the records read. -/
def slotWeight (slots : List (Option Record)) : Int64 :=
  (slots.map (fun r => (r.map Record.weight).getD 0)).sum

/-- Sort the slots of a type; comparing a nil record panics. -/
def sortSlots (ext : Externals) (slots : List (Option Record)) : Res (List (Option Record)) :=
  if slots.all Option.isSome then .ok ((ext.sortByWeight (slots.filterMap id)).map some)
  else .panic .nilDeref

/-- Read the records of type `t` of a label. -/
def readType (ext : Externals) (origin dk : String) (t : RRType) (rdata : Json) (l : RawLabel) :
    Res RawLabel := do
  let entries ← recordEntries rdata
  let slots ← entries.mapM (readRecord origin l.label dk t)
  let weight := l.weightOf t + slotWeight slots
  let slots ← (if 0 < weight then sortSlots ext slots else .ok slots)
  return (l.setRecords t slots).setWeight t weight

/-- Go `Zone.addHealthReference`. -/
def addHealthReference (l : RawLabel) : Json → Res RawLabel
  | .obj data => do
    match ← newReferenceFromMap (Json.fields data) with
    | .error _ => return l
    | .ok tester => return { l with test := some tester }
  | _ => .ok l

/-- One field of a label; the flag is the zone's `HasClosest`. -/
def readField (ext : Externals) (origin dk : String) (st : RawLabel × Bool) (rType : String)
    (rdata : Json) : Res (RawLabel × Bool) :=
  let (l, hasClosest) := st
  if rType = "max_hosts" then do
    let n ← Typeutil.toInt rdata
    return ({ l with maxHosts := n }, hasClosest)
  else if rType = "closest" then do
    let b ← rdata.asBool
    return ({ l with closest := b }, hasClosest || b)
  else if rType = "ttl" then do
    let n ← Typeutil.toInt rdata
    return ({ l with ttl := n }, hasClosest)
  else if rType = "health" then do
    let l ← addHealthReference l rdata
    return (l, hasClosest)
  else
    match recordTypes rType, rdata with
    | none, _ => .ok st
    | some _, .null => .ok st
    | some t, rdata => do
      let l ← readType ext origin dk t rdata l
      return (l, hasClosest)

/-- Read a label with all its fields into the zone. -/
def readLabel (ext : Externals) (z : RawZone) (dk : String) (dv : Json) : Res RawZone := do
  let dv ← dv.asObj
  let (l, hasClosest) ← dv.entries.foldlM (fun st e => readField ext z.origin dk st e.1 e.2)
    (newLabel z.options dk, z.hasClosest)
  return { z with labels := z.labels.insert (toLower dk) l, hasClosest := hasClosest }

/-- The first pass of `setupZoneData`: read all labels. -/
def readLabels (ext : Externals) (data : GoMap String Json) (z : RawZone) : Res RawZone :=
  data.entries.foldlM (fun z e => readLabel ext z e.1 e.2) z

/-! ## The second pass -/

/-- Go `AlwaysWeighted`. -/
def alwaysWeighted : List RRType :=
  [typeA, typeAAAA, typeCNAME]

/-- Do the records of type `t` get the default weight? -/
def setsWeight (l : RawLabel) (t : RRType) : Bool :=
  t ∈ alwaysWeighted ∧ l.weightOf t = 0

/-- The TTL of a record that has none of its own. -/
def defaultTtl (zoneTtl labelTtl : Int) (t : RRType) : UInt32 :=
  if 0 < labelTtl then UInt32.ofInt labelTtl
  else if t = typeNS then 86400
  else UInt32.ofInt zoneTtl

/-- Set weight and TTL of a record; a nil slot is dereferenced here. -/
def finishRecord (zoneTtl labelTtl : Int) (setWeight : Bool) : Option Record → Res Record
  | none => .panic .nilDeref
  | some r =>
    let rr := r.rr
    let ttl := if rr.hdr.ttl = 0 then defaultTtl zoneTtl labelTtl rr.hdr.rrtype else rr.hdr.ttl
    .ok { r with
      weight := if setWeight then 1 else r.weight
      rr := { rr with hdr := { rr.hdr with ttl := ttl } } }

/-- Set weights and TTLs of the records of a label. -/
def finishLabel (options : ZoneOptions) (l : RawLabel) : Res Label := do
  let records ← l.records.traverse (fun t slots =>
    slots.mapM (finishRecord options.ttl l.ttl (setsWeight l t)))
  -- the new total of a type counts its records, each with weight 1
  let totals := l.records.mapVals (fun t slots =>
    if setsWeight l t then l.weightOf t + Int64.ofNat slots.length else l.weightOf t)
  return { l with records := records, weight := totals ∪ l.weight }

/-- Add the labels above the label `k` that are missing. -/
def addSubLabels (z : Zone) (k : String) : Zone :=
  if contains k '.' then
    (split k '.').tails.tail.dropLast.foldl (fun z subLabels =>
      let subSubLabel := join subLabels '.'
      if subSubLabel ∈ z.labels then z else z.addLabel subSubLabel) z
  else z

/-- The second pass of `setupZoneData`. -/
def finishLabels (z : RawZone) : Res Zone := do
  let labels ← z.labels.traverse (fun _ l => finishLabel z.options l)
  return z.labels.keys.foldl addSubLabels { z with labels := labels }

/-- Build a zone from the `data` object of its file (Go `setupZoneData`). -/
def setupZoneData (ext : Externals) (data : GoMap String Json) (z : RawZone) : Res Zone := do
  let raw ← readLabels ext data z
  let z ← finishLabels raw
  addSOA ext z

/-! ## Zone files -/

/-- Read the logging options; their order matters, since the one that names a key turns logging on. -/
def readLogging (data : GoMap String Json) : Res ZoneLogging :=
  data.entries.foldlM (fun (l : ZoneLogging) e =>
    if e.1 = "stathat" then do
      let b ← Typeutil.toBool e.2
      return { l with statHat := b }
    else if e.1 = "stathat_api" then do
      let s ← Typeutil.toString e.2
      return { l with statHatAPI := s, statHat := true }
    else .ok l) ⟨false, ""⟩

/-- One top-level field of a zone file. The state holds the zone's options, the flag `HasClosest` and
    the field `data`; the inner result is an error that `ReadZoneFile` returns. -/
def readOption (z : RawZone) (data : GoMap String Json) (k : String) (v : Json) :
    Res (Except String (RawZone × GoMap String Json)) :=
  if k = "ttl" then do
    let n ← Typeutil.toInt v
    return .ok ({ z with options := { z.options with ttl := n } }, data)
  else if k = "serial" then do
    let n ← Typeutil.toInt v
    return .ok ({ z with options := { z.options with serial := n } }, data)
  else if k = "contact" then do
    let s ← v.asStr
    return .ok ({ z with options := { z.options with contact := s } }, data)
  else if k = "max_hosts" then do
    let n ← Typeutil.toInt v
    return .ok ({ z with options := { z.options with maxHosts := n } }, data)
  else if k = "closest" then do
    let b ← v.asBool
    return .ok ({ z with
      options := { z.options with closest := b }
      hasClosest := z.hasClosest || b }, data)
  else if k = "targeting" then do
    let s ← v.asStr
    match parseTargets s with
    | (_, some err) => return .error ("parsing targeting '" ++ s ++ "': " ++ err)
    | (t, none) => return .ok ({ z with options := { z.options with targeting := t } }, data)
  else if k = "logging" then do
    let l ← readLogging (← v.asObj)
    return .ok ({ z with logging := some l }, data)
  else if k = "data" then do
    let d ← v.asObj
    return .ok (z, d)
  else if k = "parseIP" then do
    let b ← v.asBool
    return .ok ({ z with parseIP := b }, data)
  else .ok (.ok (z, data))

/-- All top-level fields of a zone file, up to the first error. -/
def readOptions : List (Σ _ : String, Json) → RawZone → GoMap String Json →
    Res (Except String (RawZone × GoMap String Json))
  | [], z, data => .ok (.ok (z, data))
  | e :: es, z, data => do
    match ← readOption z data e.1 e.2 with
    | .error err => return .error err
    | .ok (z, data) => readOptions es z data

/-- The place of a record's address. -/
def locate (g : Provider) (r : Record) : Record :=
  let lookup (ip : IP) : Option Location :=
    match g.getLocation ip with
    | (_, some _) => none
    | (l, none) => l
  match r.rr.data with
  | .a ip => { r with loc := lookup ip }
  | .aaaa ip => { r with loc := lookup ip }
  | _ => { r with loc := none }

/-- Look up the places of the addresses of a label. -/
def LabelOf.locate (g : Provider) (l : Label) : Label :=
  if l.closest then
    { l with records := l.records.mapVals (fun t rs =>
        if t = typeA ∨ t = typeAAAA then rs.map (Zones.locate g) else rs) }
  else l

/-- Go `Zone.SetLocations`. -/
def ZoneOf.setLocations (g : Provider) (z : Zone) : Zone :=
  { z with labels := z.labels.mapVals (fun _ l => l.locate g) }

/-- The labels when places are put in. -/
lemma lookup_setLocations (g : Provider) (z : Zone) (k : String) :
    (z.setLocations g).labels.lookup k = (z.labels.lookup k).map (·.locate g) :=
  GoMap.lookup_mapVals _ _ _

/-- Putting in places keeps the names of the labels. -/
lemma mem_setLocations {k : String} (g : Provider) (z : Zone) :
    k ∈ (z.setLocations g).labels ↔ k ∈ z.labels := by
  rw [← AList.lookup_isSome, ← AList.lookup_isSome, lookup_setLocations, Option.isSome_map]

/-- A label of a zone with places, and the one without that it comes from. -/
lemma exists_of_lookup_setLocations {g : Provider} {z : Zone} {k : String} {l : Label}
    (h : (z.setLocations g).labels.lookup k = some l) :
    ∃ l0, z.labels.lookup k = some l0 ∧ l = l0.locate g := by
  rw [lookup_setLocations] at h
  obtain ⟨l0, hl0, rfl⟩ := Option.map_eq_some_iff.mp h
  exact ⟨l0, hl0, rfl⟩

/-- A decoded document as the map that `ReadZoneFile` asks for; `null` leaves the map nil. -/
def topLevel (fileName : String) : Json → Except String (GoMap String Json)
  | .obj l => .ok (Json.fields l)
  | .null => .ok ∅
  | _ => .error ("error parsing JSON object in config file " ++ fileName)

/-- The body of `ReadZoneFile`, for a file with this modification time (in nanoseconds) and decoded
    content, and with the global geo provider. -/
def readZoneDoc (ext : Externals) (geo : Option Provider) (name fileName : String) (mtime : Int)
    (doc : Except String Json) : Res (Except String Zone) :=
  let zone : RawZone := newZone name
  let zone := { zone with options := { zone.options with serial := mtime / 1000000000 } }
  match doc.bind (topLevel fileName) with
  | .error err => .ok (.error err)
  | .ok objmap => do
    match ← readOptions objmap.entries zone ∅ with
    | .error err => return .error err
    | .ok (zone, data) =>
      let zone ← setupZoneData ext data zone
      match geo with
      | some g => return .ok (if zone.hasClosest then zone.setLocations g else zone)
      | none => return .ok zone

/-- The text of a panic value. -/
def panicText : Panic → String
  | .explicit msg => msg
  | .index => "runtime error: index out of range"
  | .nilDeref => "runtime error: invalid memory address or nil pointer dereference"
  | .typeAssert => "interface conversion"
  | .range => "runtime error: makeslice: len out of range"

/-- Read a zone file (Go `Zone.ReadZoneFile` on a new zone): a panic is recovered into an error. -/
def readZoneFile (ext : Externals) (geo : Option Provider) (name fileName : String) (mtime : Int)
    (doc : Except String Json) : Except String Zone :=
  match readZoneDoc ext geo name fileName mtime doc with
  | .ok r => r
  | .panic p => .error ("reading " ++ name ++ " failed: " ++ panicText p)
  | .diverge => .error ""

end GeoDNS.Zones
