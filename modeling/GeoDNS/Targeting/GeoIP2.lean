import GeoDNS.Lib.Res
import GeoDNS.Lib.Strings
import GeoDNS.Targeting.Targets
import Mathlib.Data.Nat.Bitwise

/-!
# The GeoIP2 databases

`targeting/geoip2/geoip2.go`: a provider of geo lookups from up to three database files, which are opened
when they are first asked for. The country database is opened by `New`, which fails without it; the other
readers are nil until some call has opened them, and stay nil if that fails.

A lookup gets its reader from `get`, which opens the database if it has to. `GetLocation` does not: it uses
the reader of the city database as it is. `geoCalls_safe_iff` says which sequences of calls never use a nil
reader; `zone_queries_safe_iff` says it of the calls that loading a zone and answering queries make.
-/

namespace GeoDNS.Targeting
open GeoDNS.Lib

/-- Go `geoType`. -/
inductive GeoType where
  | countryDB
  | cityDB
  | asnDB
  deriving DecidableEq, Repr

/-- The names of the database files. -/
def dbFiles : GeoType → List String
  | .countryDB => ["GeoIP2-Country.mmdb", "GeoLite2-Country.mmdb"]
  | .asnDB => ["GeoIP2-ASN.mmdb", "GeoLite2-ASN.mmdb"]
  | .cityDB => ["GeoIP2-City.mmdb", "GeoLite2-City.mmdb"]

/-- What a city lookup finds (the fields of the vendored `geoip2.City` that are used). -/
structure City where
  isoCode : String
  subdivisions : List String
  latitude : Float64
  longitude : Float64

/-- An open database (the vendored `geoip2.Reader`): the country code, the place and the number of the
    network of an address, or the error of the lookup. -/
structure Reader where
  country : IP → Except String String
  city : IP → Except String City
  asn : IP → Except String Nat

/-- The directory with the database files, and the tables of the package `countries`. -/
structure Databases where
  dir : String
  stat : String → Bool
  openFile : String → Except String Reader
  countryContinent : String → String
  countryRegionGroup : String → String → String

/-- Go `GeoIP2`: the readers, nil as long as their database is not open. -/
structure GeoIP2 where
  country : Option Reader := none
  city : Option Reader := none
  asn : Option Reader := none

/-- The reader of a database. -/
def GeoIP2.reader (g : GeoIP2) : GeoType → Option Reader
  | .countryDB => g.country
  | .cityDB => g.city
  | .asnDB => g.asn

/-- Set the reader of a database. -/
def GeoIP2.setReader (g : GeoIP2) (t : GeoType) (n : Reader) : GeoIP2 :=
  match t with
  | .countryDB => { g with country := some n }
  | .cityDB => { g with city := some n }
  | .asnDB => { g with asn := some n }

/-- The path of the file to open: the one of this name, or else the first that exists of those for the
    database. -/
def Databases.fileName (dbs : Databases) (t : GeoType) (db : String) : Option String :=
  if db = "" then ((dbFiles t).map (fun f => dbs.dir ++ "/" ++ f)).find? dbs.stat
  else some (dbs.dir ++ "/" ++ db)

/-- The reader of a database that is opened, or the error. -/
def Databases.openDB (dbs : Databases) (t : GeoType) (db : String) : Except String Reader :=
  match dbs.fileName t db with
  | none => .error ("could not find '[" ++ join (dbFiles t) ' ' ++ "]' in '" ++ dbs.dir ++ "'")
  | some fileName => dbs.openFile fileName

/-- Go `GeoIP2.open`. -/
def GeoIP2.open (dbs : Databases) (g : GeoIP2) (t : GeoType) (db : String) :
    Except String Reader × GeoIP2 :=
  match dbs.openDB t db with
  | .error err => (.error err, g)
  | .ok n => (.ok n, g.setReader t n)

/-- Go `GeoIP2.get`. -/
def GeoIP2.get (dbs : Databases) (g : GeoIP2) (t : GeoType) (db : String) :
    Except String Reader × GeoIP2 :=
  match g.reader t with
  | some r => (.ok r, g)
  | none => g.open dbs t db

/-- Go `New`. -/
def newGeoIP2 (dbs : Databases) : Except String GeoIP2 :=
  match ({} : GeoIP2).open dbs .countryDB "" with
  | (.error err, _) => .error err
  | (.ok _, g) => .ok g

/-- Can this database be used? (Go `HasASN`, `HasCountry`, `HasLocation`) -/
def GeoIP2.has (dbs : Databases) (t : GeoType) (g : GeoIP2) : (Bool × Option String) × GeoIP2 :=
  match g.get dbs t "" with
  | (.ok _, g) => ((true, none), g)
  | (.error err, g) => ((false, some err), g)

/-- Go `GeoIP2.HasASN`. -/
def GeoIP2.hasASN (dbs : Databases) (g : GeoIP2) : (Bool × Option String) × GeoIP2 :=
  g.has dbs .asnDB

/-- Go `GeoIP2.HasCountry`. -/
def GeoIP2.hasCountry (dbs : Databases) (g : GeoIP2) : (Bool × Option String) × GeoIP2 :=
  g.has dbs .countryDB

/-- Go `GeoIP2.HasLocation`. -/
def GeoIP2.hasLocation (dbs : Databases) (g : GeoIP2) : (Bool × Option String) × GeoIP2 :=
  g.has dbs .cityDB

/-- The network of an address, as `GetASN` writes it. -/
def Reader.asnOf (r : Reader) (ip : IP) : String × Int × Option String :=
  match r.asn ip with
  | .error err => ("", 0, some ("lookup ASN for '" ++ ip.toText ++ "': " ++ err))
  | .ok asn => ("as" ++ itoa asn, 0, none)

/-- Country and continent of an address, as `GetCountry` returns them. -/
def Databases.countryOf (dbs : Databases) (r : Reader) (ip : IP) : String × String × Int :=
  match r.country ip with
  | .error _ => ("", "", 0)
  | .ok isoCode =>
    if isoCode = "" then ("", "", 0)
    else (toLower isoCode, dbs.countryContinent (toLower isoCode), 0)

/-- The place of an address, as `GetLocation` builds it. -/
def Databases.locationOf (dbs : Databases) (r : Reader) (ip : IP) : Option Location × Option String :=
  match r.city ip with
  | .error err => (none, some err)
  | .ok c =>
    let country := toLower c.isoCode
    let region := (c.subdivisions.head?.map toLower).getD ""
    let continent := if country = "" then "" else dbs.countryContinent country
    let (region, regionGroup) :=
      if country = "" ∨ region = "" then (region, "")
      else (country ++ "-" ++ region, dbs.countryRegionGroup country (country ++ "-" ++ region))
    (some ⟨country, continent, regionGroup, region, c.latitude, c.longitude, 0⟩, none)

/-- Go `GeoIP2.GetASN`. -/
def GeoIP2.getASN (dbs : Databases) (g : GeoIP2) (ip : IP) : (String × Int × Option String) × GeoIP2 :=
  match g.get dbs .asnDB "" with
  | (.error err, g) => (("", 0, some err), g)
  | (.ok r, g) => (r.asnOf ip, g)

/-- Go `GeoIP2.GetCountry`; the error of `get` is dropped, and the reader is used all the same. -/
def GeoIP2.getCountry (dbs : Databases) (g : GeoIP2) (ip : IP) : Res ((String × String × Int) × GeoIP2) :=
  match g.get dbs .countryDB "" with
  | (.error _, _) => .panic .nilDeref
  | (.ok r, g) => .ok (dbs.countryOf r ip, g)

/-- Go `GeoIP2.GetLocation`; the reader is used as it is, open or not. -/
def GeoIP2.getLocation (dbs : Databases) (g : GeoIP2) (ip : IP) :
    Res (Option Location × Option String) :=
  match g.city with
  | none => .panic .nilDeref
  | some r => .ok (dbs.locationOf r ip)

/-! ## Calls -/

/-- A call of one of the methods. -/
inductive GeoCall where
  | hasCountry
  | hasASN
  | hasLocation
  | getCountry (ip : IP)
  | getASN (ip : IP)
  | getLocation (ip : IP)
  deriving DecidableEq, Repr

/-- The database that a call is about. -/
def GeoCall.db : GeoCall → GeoType
  | .hasCountry => .countryDB
  | .hasASN => .asnDB
  | .hasLocation => .cityDB
  | .getCountry _ => .countryDB
  | .getASN _ => .asnDB
  | .getLocation _ => .cityDB

/-- What a call returns. -/
inductive GeoAnswer where
  | has (ok : Bool) (err : Option String)
  | country (country continent : String) (netmask : Int)
  | asn (asn : String) (netmask : Int) (err : Option String)
  | location (location : Option Location) (err : Option String)

/-- An error, or an empty result. -/
def GeoAnswer.Nothing : GeoAnswer → Prop
  | .has ok err => ok = false ∧ err ≠ none
  | .country c continent _ => c = "" ∧ continent = ""
  | .asn number _ err => number = "" ∧ err ≠ none
  | .location l err => l = none ∧ err ≠ none

/-- One call. -/
def geoCall (dbs : Databases) (g : GeoIP2) : GeoCall → Res (GeoAnswer × GeoIP2)
  | .hasCountry =>
    let ((ok, err), g) := g.hasCountry dbs
    .ok (.has ok err, g)
  | .hasASN =>
    let ((ok, err), g) := g.hasASN dbs
    .ok (.has ok err, g)
  | .hasLocation =>
    let ((ok, err), g) := g.hasLocation dbs
    .ok (.has ok err, g)
  | .getCountry ip => do
    let ((country, continent, netmask), g) ← g.getCountry dbs ip
    return (.country country continent netmask, g)
  | .getASN ip =>
    let ((asn, netmask, err), g) := g.getASN dbs ip
    .ok (.asn asn netmask err, g)
  | .getLocation ip => do
    let (location, err) ← g.getLocation dbs ip
    return (.location location err, g)

/-- A sequence of calls. -/
def geoCalls (dbs : Databases) : GeoIP2 → List GeoCall → Res (List GeoAnswer × GeoIP2)
  | g, [] => .ok ([], g)
  | g, c :: cs => do
    let (a, g) ← geoCall dbs g c
    let (as, g) ← geoCalls dbs g cs
    return (a :: as, g)

/-! ## What the calls return -/

/-- Can the database be opened? -/
def Databases.Opens (dbs : Databases) (t : GeoType) : Prop :=
  ∃ r, dbs.openDB t "" = .ok r

/-- The provider that the files of the directory amount to: what it answers does not depend on the calls
    before. -/
def Databases.provider (dbs : Databases) : Provider where
  getCountry ip :=
    match dbs.openDB .countryDB "" with
    | .error _ => ("", "", 0)
    | .ok r => dbs.countryOf r ip
  getASN ip :=
    match dbs.openDB .asnDB "" with
    | .error err => ("", 0, some err)
    | .ok r => r.asnOf ip
  getLocation ip :=
    match dbs.openDB .cityDB "" with
    | .error err => (none, some err)
    | .ok r => dbs.locationOf r ip

/-- What asking for a database returns, given the files of the directory. -/
def Databases.available (dbs : Databases) (t : GeoType) : GeoAnswer :=
  match dbs.openDB t "" with
  | .error err => .has false (some err)
  | .ok _ => .has true none

/-- What a call returns, given the files of the directory. -/
def Databases.answer (dbs : Databases) : GeoCall → GeoAnswer
  | .hasCountry => dbs.available .countryDB
  | .hasASN => dbs.available .asnDB
  | .hasLocation => dbs.available .cityDB
  | .getCountry ip =>
    let (country, continent, netmask) := dbs.provider.getCountry ip
    .country country continent netmask
  | .getASN ip =>
    let (asn, netmask, err) := dbs.provider.getASN ip
    .asn asn netmask err
  | .getLocation ip =>
    let (location, err) := dbs.provider.getLocation ip
    .location location err

/-- A database that does not open gives an error. -/
lemma not_opens {dbs : Databases} {t : GeoType} (missing : ¬ dbs.Opens t) :
    ∃ err, dbs.openDB t "" = .error err := by
  cases opening : dbs.openDB t "" with
  | error err => exact ⟨err, rfl⟩
  | ok r => exact absurd ⟨r, opening⟩ missing

/-- A call whose database is missing has nothing to return. -/
lemma answer_nothing {dbs : Databases} {c : GeoCall} (missing : ¬ dbs.Opens c.db) :
    (dbs.answer c).Nothing := by
  obtain ⟨err, opening⟩ := not_opens missing
  cases c <;> simp only [GeoCall.db] at opening <;>
    simp [Databases.answer, Databases.available, Databases.provider, opening, GeoAnswer.Nothing]

/-- The readers that are set are those of the files, and the country reader is set. -/
structure GeoIP2.Opened (dbs : Databases) (g : GeoIP2) : Prop where
  country : g.country.isSome
  reader : ∀ {t r}, g.reader t = some r → dbs.openDB t "" = .ok r

/-- To set a reader again changes nothing. -/
lemma setReader_reader {g : GeoIP2} {t : GeoType} {r : Reader} (set : g.reader t = some r) :
    g.setReader t r = g := by
  cases t <;> simp only [GeoIP2.reader] at set <;> simp only [GeoIP2.setReader, ← set]

/-- The readers when one of them is set. -/
lemma reader_setReader (g : GeoIP2) (t t' : GeoType) (r : Reader) :
    (g.setReader t r).reader t' = if t' = t then some r else g.reader t' := by
  cases t <;> cases t' <;> rfl

/-- A reader that was opened is set. -/
lemma GeoIP2.Opened.setReader {dbs : Databases} {g : GeoIP2} {t : GeoType} {r : Reader}
    (opened : g.Opened dbs) (opening : dbs.openDB t "" = .ok r) : (g.setReader t r).Opened dbs := by
  constructor
  · show ((g.setReader t r).reader .countryDB).isSome
    rw [reader_setReader]
    split
    · rfl
    · exact opened.country
  · intro t' r' set
    rw [reader_setReader] at set
    split at set
    · next same => rw [same, opening, Option.some.inj set]
    · exact opened.reader set

/-- `New` opens the country database. -/
lemma newGeoIP2_opened {dbs : Databases} {g : GeoIP2} (made : newGeoIP2 dbs = .ok g) :
    g.Opened dbs ∧ g.city = none := by
  unfold newGeoIP2 GeoIP2.open at made
  cases opening : dbs.openDB .countryDB "" with
  | error err => simp [opening] at made
  | ok r =>
    simp only [opening, Except.ok.injEq] at made
    subst made
    refine ⟨⟨rfl, ?_⟩, rfl⟩
    intro t r' set
    rw [reader_setReader] at set
    split at set
    · next same => rw [same, opening, Option.some.inj set]
    · cases t <;> simp [GeoIP2.reader] at set

/-- A reader is the one of its file, whether this call opens it or an earlier one did. -/
lemma get_cases {dbs : Databases} {g : GeoIP2} (opened : g.Opened dbs) (t : GeoType) :
    (∃ r, dbs.openDB t "" = .ok r ∧ g.get dbs t "" = (.ok r, g.setReader t r)) ∨
      ∃ err, dbs.openDB t "" = .error err ∧ g.reader t = none ∧ g.get dbs t "" = (.error err, g) := by
  unfold GeoIP2.get
  cases set : g.reader t with
  | some r => exact .inl ⟨r, opened.reader set, by rw [setReader_reader set]⟩
  | none =>
    cases opening : dbs.openDB t "" with
    | error err => exact .inr ⟨err, rfl, rfl, by simp [GeoIP2.open, opening]⟩
    | ok r => exact .inl ⟨r, rfl, by simp [GeoIP2.open, opening]⟩

/-- A call that returns: what its database answers, with at most that reader set. -/
structure Advances (dbs : Databases) (g : GeoIP2) (c : GeoCall) (g' : GeoIP2) : Prop where
  returns : geoCall dbs g c = .ok (dbs.answer c, g')
  opened : g'.Opened dbs
  city : g'.city.isSome ↔ g.city.isSome ∨ (c = .hasLocation ∧ dbs.Opens .cityDB)

/-- Getting the reader of a database other than the city's leaves that one alone. -/
lemma setReader_city {t : GeoType} (other : t ≠ .cityDB) (g : GeoIP2) (r : Reader) :
    (g.setReader t r).city = g.city := by
  cases t with
  | cityDB => exact absurd rfl other
  | countryDB => rfl
  | asnDB => rfl

/-- What `Has…` answers, and the readers after it. -/
lemma has_advances {dbs : Databases} {g : GeoIP2} (opened : g.Opened dbs) (t : GeoType) :
    ∃ ok err g', g.has dbs t = ((ok, err), g') ∧ .has ok err = dbs.available t ∧ g'.Opened dbs ∧
      (g'.city.isSome ↔ g.city.isSome ∨ (t = .cityDB ∧ dbs.Opens .cityDB)) := by
  unfold GeoIP2.has Databases.available
  rcases get_cases opened t with ⟨r, opening, got⟩ | ⟨err, opening, unset, got⟩
  · refine ⟨true, none, g.setReader t r, by rw [got], by rw [opening], opened.setReader opening, ?_⟩
    by_cases city : t = .cityDB
    · subst city
      exact iff_of_true rfl (.inr ⟨rfl, r, opening⟩)
    · simp [setReader_city city, city]
  · refine ⟨false, some err, g, by rw [got], by rw [opening], opened, ?_⟩
    constructor
    · exact .inl
    · rintro (set | ⟨rfl, r, opens⟩)
      · exact set
      · rw [opening] at opens
        cases opens

/-- Every call but a location lookup without its reader returns what the files of the directory answer. -/
lemma call_advances {dbs : Databases} {g : GeoIP2} (opened : g.Opened dbs) {c : GeoCall}
    (located : ∀ ip, c = .getLocation ip → g.city.isSome) : ∃ g', Advances dbs g c g' := by
  cases c with
  | hasCountry =>
    obtain ⟨ok, err, g', run, same, opened', city⟩ := has_advances opened .countryDB
    refine ⟨g', ?_, opened', by simpa using city⟩
    simp only [geoCall, GeoIP2.hasCountry, run, same, Databases.answer]
  | hasASN =>
    obtain ⟨ok, err, g', run, same, opened', city⟩ := has_advances opened .asnDB
    refine ⟨g', ?_, opened', by simpa using city⟩
    simp only [geoCall, GeoIP2.hasASN, run, same, Databases.answer]
  | hasLocation =>
    obtain ⟨ok, err, g', run, same, opened', city⟩ := has_advances opened .cityDB
    refine ⟨g', ?_, opened', by simpa using city⟩
    simp only [geoCall, GeoIP2.hasLocation, run, same, Databases.answer]
  | getCountry ip =>
    -- the country reader has been set since `New`
    obtain ⟨r, set⟩ := Option.isSome_iff_exists.mp opened.country
    refine ⟨g, ?_, opened, by simp⟩
    have got : g.get dbs .countryDB "" = (.ok r, g) := by simp [GeoIP2.get, GeoIP2.reader, set]
    have opening : dbs.openDB .countryDB "" = .ok r := opened.reader set
    simp [geoCall, GeoIP2.getCountry, got, Databases.answer, Databases.provider, opening]
  | getASN ip =>
    rcases get_cases opened .asnDB with ⟨r, opening, got⟩ | ⟨err, opening, -, got⟩
    · refine ⟨g.setReader .asnDB r, ?_, opened.setReader opening, by simp [setReader_city]⟩
      simp [geoCall, GeoIP2.getASN, got, Databases.answer, Databases.provider, opening]
    · refine ⟨g, ?_, opened, by simp⟩
      simp [geoCall, GeoIP2.getASN, got, Databases.answer, Databases.provider, opening]
  | getLocation ip =>
    obtain ⟨r, set⟩ := Option.isSome_iff_exists.mp (located ip rfl)
    refine ⟨g, ?_, opened, by simp⟩
    have opening : dbs.openDB .cityDB "" = .ok r := opened.reader set
    simp [geoCall, GeoIP2.getLocation, set, Databases.answer, Databases.provider, opening]

/-- A location lookup finds its reader: it is set, or an earlier call of the sequence opens it. -/
def Located (dbs : Databases) (g : GeoIP2) (calls : List GeoCall) : Prop :=
  ∀ pre ip post, calls = pre ++ .getLocation ip :: post →
    g.city.isSome ∨ (.hasLocation ∈ pre ∧ dbs.Opens .cityDB)

/-- The city reader is set before a location lookup. -/
lemma Located.head {dbs : Databases} {g : GeoIP2} {c : GeoCall} {calls : List GeoCall}
    (located : Located dbs g (c :: calls)) (ip : IP) (lookup : c = .getLocation ip) :
    g.city.isSome := by
  rcases located [] ip calls (by rw [lookup]; rfl) with set | ⟨earlier, -⟩
  · exact set
  · cases earlier

/-- After a call, the rest of the sequence is in the same position. -/
lemma Advances.located_iff {dbs : Databases} {g g' : GeoIP2} {c : GeoCall} {calls : List GeoCall}
    (step : Advances dbs g c g') (head : ∀ ip, c = .getLocation ip → g.city.isSome) :
    Located dbs g (c :: calls) ↔ Located dbs g' calls := by
  constructor
  · intro located pre ip post split
    rcases located (c :: pre) ip post (by rw [split]; rfl) with set | ⟨earlier, opens⟩
    · exact .inl (step.city.mpr (.inl set))
    · rcases List.mem_cons.mp earlier with same | earlier
      · exact .inl (step.city.mpr (.inr ⟨same.symm, opens⟩))
      · exact .inr ⟨earlier, opens⟩
  · intro located pre ip post split
    cases pre with
    | nil => exact .inl (head ip (List.cons.inj split).1)
    | cons d pre =>
      obtain ⟨rfl, rest⟩ := List.cons.inj split
      rcases located pre ip post rest with set | ⟨earlier, opens⟩
      · rcases step.city.mp set with set | ⟨same, opens⟩
        · exact .inl set
        · exact .inr ⟨List.mem_cons.mpr (.inl same.symm), opens⟩
      · exact .inr ⟨List.mem_cons_of_mem _ earlier, opens⟩

/-- A sequence of calls returns as long as its location lookups find their reader, and then with what the
    files of the directory answer. -/
lemma geoCalls_returns {dbs : Databases} {g : GeoIP2} (opened : g.Opened dbs) {calls : List GeoCall}
    (located : Located dbs g calls) : ∃ g', geoCalls dbs g calls = .ok (calls.map dbs.answer, g') := by
  induction calls generalizing g with
  | nil => exact ⟨g, rfl⟩
  | cons c calls ih =>
    obtain ⟨g₁, step⟩ := call_advances opened located.head
    obtain ⟨g₂, run⟩ := ih step.opened ((step.located_iff located.head).mp located)
    exact ⟨g₂, by simp [geoCalls, step.returns, run]⟩

/-- A sequence of calls that returns has a reader at each of its location lookups. -/
lemma geoCalls_located {dbs : Databases} {g g' : GeoIP2} (opened : g.Opened dbs)
    {calls : List GeoCall} {answers : List GeoAnswer} (run : geoCalls dbs g calls = .ok (answers, g')) :
    Located dbs g calls := by
  induction calls generalizing g g' answers with
  | nil =>
    intro pre ip post split
    simp at split
  | cons c calls ih =>
    have head : ∀ ip, c = .getLocation ip → g.city.isSome := by
      rintro ip rfl
      cases set : g.city with
      | some r => rfl
      | none => simp [geoCalls, geoCall, GeoIP2.getLocation, set] at run
    obtain ⟨g₁, step⟩ := call_advances opened head
    refine (step.located_iff head).mpr ?_
    cases rest : geoCalls dbs g₁ calls with
    | ok result => exact ih step.opened rest
    | panic p => simp [geoCalls, step.returns, rest] at run
    | diverge => simp [geoCalls, step.returns, rest] at run

/-! ## The calls of the server -/

/-- The calls made for a zone when its file is read (Go `Zone.ReadZoneFile`, which only logs what the checks
    return, and `Zone.SetLocations`, with the addresses of the labels that want the closest ones). -/
def readZoneCalls (t : TargetOptions) (hasClosest : Bool) (addresses : List IP) : List GeoCall :=
  if t = 0 ∧ ¬ hasClosest then []
  else
    (if targetRegionGroup ≤ t ∨ hasClosest then [.hasLocation]
      else if targetContinent ≤ t then [.hasCountry]
      else [])
    ++ (if t.has targetASN then [.hasASN] else [])
    ++ (if hasClosest then addresses.map .getLocation else [])

/-- The calls of `getGeoTargets` for a client. -/
def geoTargetCalls (t : TargetOptions) (hasClosest : Bool) (ip : IP) : List GeoCall :=
  (if t.has targetASN then [.getASN ip] else [])
    ++ (if t.has targetRegion ∨ t.has targetRegionGroup ∨ hasClosest then [.getLocation ip]
      else if t.has targetCountry ∨ t.has targetContinent then [.getCountry ip]
      else [])

/-- Two providers answer a lookup alike. -/
def Provider.Alike (g g' : Provider) : GeoCall → Prop
  | .getCountry ip => g.getCountry ip = g'.getCountry ip
  | .getASN ip => g.getASN ip = g'.getASN ip
  | .getLocation ip => g.getLocation ip = g'.getLocation ip
  | _ => True

/-- `getGeoTargets` looks at the answers to its calls and at nothing else of the provider. -/
lemma getGeoTargets_calls {g g' : Provider} {t : TargetOptions} {hasClosest : Bool} {ip : IP}
    (alike : ∀ c ∈ geoTargetCalls t hasClosest ip, g.Alike g' c) :
    getGeoTargets g t ip hasClosest = getGeoTargets g' t ip hasClosest := by
  have asn : t.has targetASN → g.getASN ip = g'.getASN ip := fun set =>
    alike (.getASN ip) (by simp [geoTargetCalls, set])
  have place : t.has targetRegion ∨ t.has targetRegionGroup ∨ hasClosest →
      g.getLocation ip = g'.getLocation ip := fun set =>
    alike (.getLocation ip) (by simp [geoTargetCalls, set])
  have country : ¬ (t.has targetRegion ∨ t.has targetRegionGroup ∨ hasClosest) →
      t.has targetCountry ∨ t.has targetContinent → g.getCountry ip = g'.getCountry ip :=
    fun none set => alike (.getCountry ip) (by simp only [geoTargetCalls, if_neg none, if_pos set]; simp)
  have names : (if t.has targetASN then nonempty (g.getASN ip).1 else [])
      = if t.has targetASN then nonempty (g'.getASN ip).1 else [] := by
    split
    · next set => rw [asn set]
    · rfl
  unfold getGeoTargets
  simp only [names]
  by_cases located : t.has targetRegion ∨ t.has targetRegionGroup ∨ hasClosest
  · simp only [if_pos located, place located]
  · by_cases set : t.has targetCountry ∨ t.has targetContinent
    · simp only [if_neg located, if_pos set, country located set]
    · simp only [if_neg located, if_neg set]

/-- An option that is set is not larger than the options. -/
lemma has_le {t o : TargetOptions} {i : Nat} (bit : o = 2 ^ i) (set : t.has o) : o ≤ t := by
  simp only [TargetOptions.has, bit, Nat.and_two_pow, decide_eq_true_eq] at set
  have ge := Nat.ge_two_pow_of_testBit (x := t) (i := i)
  cases on : t.testBit i with
  | false => simp [on] at set
  | true => exact bit ▸ ge on

/-- A zone whose queries look up locations asks for the city database when it is read. -/
lemma readZoneCalls_hasLocation {t : TargetOptions} {hasClosest : Bool}
    (located : t.has targetRegion ∨ t.has targetRegionGroup ∨ hasClosest) (addresses : List IP) :
    ∃ rest, readZoneCalls t hasClosest addresses = .hasLocation :: rest := by
  have wanted : targetRegionGroup ≤ t ∨ hasClosest := by
    rcases located with set | set | set
    · exact .inl (le_trans (by decide) (has_le (i := 4) rfl set))
    · exact .inl (has_le (i := 3) rfl set)
    · exact .inr set
  have some_targeting : ¬ (t = 0 ∧ ¬ hasClosest) := by
    rintro ⟨rfl, none⟩
    rcases wanted with large | set
    · exact absurd large (by decide)
    · exact none set
  unfold readZoneCalls
  rw [if_neg some_targeting, if_pos wanted]
  exact ⟨_, rfl⟩

/-- Locations are only looked up for regions and closest labels. -/
lemma getLocation_mem {t : TargetOptions} {hasClosest : Bool} {addresses ips : List IP} {ip : IP}
    (lookup : .getLocation ip ∈ readZoneCalls t hasClosest addresses
      ++ ips.flatMap (geoTargetCalls t hasClosest)) :
    t.has targetRegion ∨ t.has targetRegionGroup ∨ hasClosest := by
  by_contra none
  rcases List.mem_append.mp lookup with reading | query
  · cases hasClosest with
    | false =>
      simp only [readZoneCalls, Bool.false_eq_true, if_false] at reading
      split_ifs at reading <;> simp at reading
    | true => exact none (.inr (.inr rfl))
  · obtain ⟨client, -, query⟩ := List.mem_flatMap.mp query
    unfold geoTargetCalls at query
    rw [if_neg none] at query
    split_ifs at query <;> simp at query

/-- Reading a zone and answering queries to it is safe exactly if it looks up no location or the city
    database can be opened; that the missing database was logged does not help. -/
lemma zone_queries_safe_iff {dbs : Databases} {g : GeoIP2} (made : newGeoIP2 dbs = .ok g)
    (t : TargetOptions) (hasClosest : Bool) (addresses ips : List IP) :
    (∃ answers g', geoCalls dbs g (readZoneCalls t hasClosest addresses
      ++ ips.flatMap (geoTargetCalls t hasClosest)) = .ok (answers, g')) ↔
    (∃ ip, .getLocation ip ∈ readZoneCalls t hasClosest addresses
      ++ ips.flatMap (geoTargetCalls t hasClosest)) → dbs.Opens .cityDB := by
  obtain ⟨opened, unset⟩ := newGeoIP2_opened made
  constructor
  · rintro ⟨answers, g', run⟩ ⟨ip, lookup⟩
    obtain ⟨pre, post, split⟩ := List.append_of_mem lookup
    rcases geoCalls_located opened run pre ip post split with set | ⟨-, opens⟩
    · simp [unset] at set
    · exact opens
  · intro opens
    have located : Located dbs g (readZoneCalls t hasClosest addresses
        ++ ips.flatMap (geoTargetCalls t hasClosest)) := by
      intro pre ip post split
      have lookup : .getLocation ip ∈ readZoneCalls t hasClosest addresses
          ++ ips.flatMap (geoTargetCalls t hasClosest) := by simp [split]
      obtain ⟨rest, first⟩ := readZoneCalls_hasLocation (getLocation_mem lookup) addresses
      refine .inr ⟨?_, opens ⟨ip, lookup⟩⟩
      -- the first call of all is the one that opens the city database
      rw [first] at split
      cases pre with
      | nil => cases (List.cons.inj split).1
      | cons c pre => exact List.mem_cons.mpr (.inl (List.cons.inj split).1)
    obtain ⟨g', run⟩ := geoCalls_returns opened located
    exact ⟨_, g', run⟩

/-! ## No nil reader -/

/-- No call uses a nil reader, and a call whose database is missing returns an error or an empty result,
    exactly if each location lookup comes after a call that has opened the city database. -/
theorem geoCalls_safe_iff {dbs : Databases} {g : GeoIP2} (made : newGeoIP2 dbs = .ok g)
    (calls : List GeoCall) :
    (∃ answers g', geoCalls dbs g calls = .ok (answers, g') ∧
      List.Forall₂ (fun c a => ¬ dbs.Opens c.db → a.Nothing) calls answers) ↔
    ∀ pre ip post, calls = pre ++ .getLocation ip :: post →
      .hasLocation ∈ pre ∧ dbs.Opens .cityDB := by
  obtain ⟨opened, unset⟩ := newGeoIP2_opened made
  have located_iff : Located dbs g calls ↔ ∀ pre ip post, calls = pre ++ .getLocation ip :: post →
      .hasLocation ∈ pre ∧ dbs.Opens .cityDB := by
    simp [Located, unset]
  rw [← located_iff]
  constructor
  · rintro ⟨answers, g', run, -⟩
    exact geoCalls_located opened run
  · intro located
    obtain ⟨g', run⟩ := geoCalls_returns opened located
    refine ⟨_, g', run, ?_⟩
    rw [List.forall₂_map_right_iff, List.forall₂_same]
    exact fun c _ => answer_nothing

/-- A database that knows one country and one city. -/
def smallReader : Reader where
  country _ := .ok "DE"
  city _ := .ok ⟨"DE", ["BE"], .ofInt 52 (by decide), .ofInt 13 (by decide)⟩
  asn _ := .ok 64500

/-- A directory with these files. -/
def smallDatabases (files : List String) : Databases where
  dir := "db"
  stat f := f ∈ files
  openFile _ := .ok smallReader
  countryContinent _ := "europe"
  countryRegionGroup _ _ := ""

/-- With the country database and nothing else. -/
def countryOnly : Databases :=
  smallDatabases ["db/GeoLite2-Country.mmdb"]

/-- With the city database as well. -/
def countryAndCity : Databases :=
  smallDatabases ["db/GeoLite2-Country.mmdb", "db/GeoLite2-City.mmdb"]

/-- The city database is opened by `HasLocation`, and the lookup then uses it. -/
theorem opened_city_found :
    newGeoIP2 countryAndCity = .ok ⟨some smallReader, none, none⟩ ∧
    ∃ answers g', geoCalls countryAndCity ⟨some smallReader, none, none⟩
        [.hasLocation, .getLocation [192, 0, 2, 1]] = .ok (answers, g') ∧
      List.Forall₂ (fun (c : GeoCall) (a : GeoAnswer) => ¬ countryAndCity.Opens c.db → a.Nothing)
        [.hasLocation, .getLocation [192, 0, 2, 1]] answers := by
  refine ⟨rfl, (geoCalls_safe_iff rfl _).mpr ?_⟩
  intro pre ip post split
  refine ⟨?_, smallReader, rfl⟩
  cases pre with
  | nil => cases (List.cons.inj split).1
  | cons c pre => exact List.mem_cons.mpr (.inl (List.cons.inj split).1)

/-- A zone with region targeting, without the city database: reading it logs that the database is missing,
    and the first query uses the nil reader. -/
theorem missing_city_panics :
    newGeoIP2 countryOnly = .ok ⟨some smallReader, none, none⟩ ∧
    geoCalls countryOnly ⟨some smallReader, none, none⟩
      (readZoneCalls targetRegion false [] ++ geoTargetCalls targetRegion false [192, 0, 2, 1])
      = .panic .nilDeref :=
  ⟨rfl, rfl⟩

end GeoDNS.Targeting
