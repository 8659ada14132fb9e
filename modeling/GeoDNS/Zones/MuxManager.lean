import GeoDNS.Zones.Health

/-!
# The zone manager

`zones/muxmanager.go`: the manager keeps the zones of a directory of zone files. `reload` goes through
the files, reads those that are new or newer than the last time, and removes the zones whose files are
gone. The calls to the registration interface are recorded in order, so that what is registered can be
compared with what the manager holds.

The directory is fixed during one `reload`. What the manager depends on is a `Site`: the library code
behind the loader, the JSON decoder, the geo provider and the hash function. The metrics that a zone
takes over from its predecessor are left out here.
-/

namespace GeoDNS.Zones
open GeoDNS.Lib GeoDNS.Targeting

/-- A directory entry with the content of its file, or the error of reading it. -/
structure DirEntry where
  name : String
  isDir : Bool := false
  modTime : Int
  content : Except String Bytes

/-- What a manager depends on. -/
structure Site where
  path : String
  ext : Externals
  geo : Option Provider
  decode : Bytes → Except String Json
  -- the hash in hexadecimal digits
  sha256 : Bytes → String
  sha256_ne : ∀ b, sha256 b ≠ ""

/-- When a zone was read last (Go `zoneReadRecord`). -/
structure ZoneReadRecord where
  time : Int
  hash : String := ""

/-- A call of the registration interface. -/
inductive RegCall where
  | add (name : String) (zone : Zone)
  | remove (name : String)

/-- Go `MuxManager`, with the calls made to its `RegistrationAPI` so far. -/
structure MuxManager where
  zonelist : GoMap String Zone := ∅
  lastRead : GoMap String ZoneReadRecord := ∅
  reg : List RegCall := []

/-- What is registered after some calls: the zone added last under a name, if it is not removed. -/
def registered (calls : List RegCall) : String → Option Zone :=
  calls.foldl (fun r call =>
    match call with
    | .add name zone => Function.update r name (some zone)
    | .remove name => Function.update r name none) (fun _ => none)

/-- Go `MuxManager.addHandler`. -/
def MuxManager.addHandler (mm : MuxManager) (name : String) (zone : Zone) : MuxManager :=
  let zone := zone.setupHealthTests
  { mm with
    zonelist := mm.zonelist.insert name zone
    reg := mm.reg ++ [.add name zone] }

/-- Go `MuxManager.removeHandler`. -/
def MuxManager.removeHandler (mm : MuxManager) (name : String) : MuxManager where
  zonelist := mm.zonelist.erase name
  lastRead := mm.lastRead.erase name
  reg := mm.reg ++ [.remove name]

/-- The zone that a directory entry is for, if it is a zone file. (A name that ends in `.json` has a dot,
    so the slice expression of the source does not panic.) -/
def zoneFile (f : DirEntry) : Option String :=
  if !endsWith (toLower f.name) ".json" || startsWith f.name "." || f.isDir then none
  else beforeLast f.name '.'

/-- The hash of a file, empty if it cannot be read (Go `sha256File`). -/
def sha256File (site : Site) (f : DirEntry) : String :=
  match f.content with
  | .error _ => ""
  | .ok b => site.sha256 b

/-- `ReadZoneFile` of a directory entry. -/
def readZone (site : Site) (name : String) (f : DirEntry) : Except String Zone :=
  let fileName := site.path ++ "/" ++ f.name
  readZoneFile site.ext site.geo name fileName f.modTime
    (match f.content with
      | .error err => .error ("reading " ++ name ++ " failed: " ++ err)
      | .ok b => (site.decode b).mapError
          ("error parsing JSON object in config file " ++ fileName ++ ·))

/-- The state of the loop over the files of `reload`. -/
structure Pass where
  mm : MuxManager
  seenZones : List String := []
  parseErr : Option String := none

/-- Read a file that is new or newer, with the record already updated to its modification time. -/
def readFile (site : Site) (p : Pass) (name : String) (f : DirEntry) (record : ZoneReadRecord) : Pass :=
  let mm := { p.mm with lastRead := p.mm.lastRead.insert name record }
  let sha256 := sha256File site f
  if record.hash = sha256 then { p with mm := mm }
  else
    match readZone site name f with
    | .error err =>
      { p with mm := mm, parseErr := some ("Error reading zone '" ++ name ++ "': " ++ err) }
    | .ok zone =>
      let mm := { mm with lastRead := mm.lastRead.insert name { record with hash := sha256 } }
      { p with mm := mm.addHandler name zone }

/-- One file of the directory (the body of the first loop of `reload`). -/
def processFile (site : Site) (p : Pass) (f : DirEntry) : Pass :=
  match zoneFile f with
  | none => p
  | some name =>
    let p := { p with seenZones := name :: p.seenZones }
    match p.mm.lastRead.lookup name with
    | none => readFile site p name f { time := f.modTime }
    | some record =>
      if f.modTime > record.time then readFile site p name f { record with time := f.modTime }
      else p

/-- Remove the zones whose files are gone (the second loop of `reload`). -/
def removeUnseen (seenZones : List String) (mm : MuxManager) : MuxManager :=
  mm.zonelist.keys.foldl (fun mm name =>
    if name = "pgeodns" ∨ name ∈ seenZones then mm else mm.removeHandler name) mm

/-- The listing of a directory, or the error of reading it. -/
abbrev Listing := Except String (List DirEntry)

/-- Go `MuxManager.reload`. -/
def reload (site : Site) (mm : MuxManager) : Listing → MuxManager × Option String
  | .error err => (mm, some ("could not read '" ++ site.path ++ "': " ++ err))
  | .ok dir =>
    let p := dir.foldl (processFile site) { mm := mm }
    (removeUnseen p.seenZones p.mm, p.parseErr)

/-- The zone that `setupPgeodnsZone` makes. -/
def pgeodnsZone (site : Site) : Res Zone :=
  let label : Label :=
    { label := "", maxHosts := 0, ttl := 0, records := ∅, weight := ∅, closest := false, test := none }
  let zone : Zone := newZone "pgeodns"
  addSOA site.ext { zone with labels := zone.labels.insert "" label }

/-- The manager after reloading once for each of these listings. -/
def reloads (site : Site) (mm : MuxManager) (dirs : List Listing) : MuxManager :=
  dirs.foldl (fun mm dir => (reload site mm dir).1) mm

end GeoDNS.Zones
