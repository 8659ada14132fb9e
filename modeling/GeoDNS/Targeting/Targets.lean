import GeoDNS.Targeting.Geo

/-!
# Target names of a client

`targeting/targeting.go`: the option bits of a zone and the list of target names they give a client,
from the most specific one to the global `@`.

`getTargets` reads and writes the bytes of the address it is given: `IP.To4` returns a slice of the
same bytes, and the code clears the last one to build the name of the /24 network. The model returns
the bytes the call leaves behind next to its results.
-/

namespace GeoDNS.Targeting
open GeoDNS.Lib

/-- A set of targeting options, one bit each (Go `TargetOptions`). -/
abbrev TargetOptions := Nat

abbrev targetGlobal : TargetOptions := 1
abbrev targetContinent : TargetOptions := 2
abbrev targetCountry : TargetOptions := 4
abbrev targetRegionGroup : TargetOptions := 8
abbrev targetRegion : TargetOptions := 16
abbrev targetASN : TargetOptions := 32
abbrev targetIP : TargetOptions := 64

/-- Is the option `o` set in `t`? (Go `t&o > 0`) -/
def TargetOptions.has (t o : TargetOptions) : Bool :=
  0 < t &&& o

/-- A target name that is used only if it is not empty. -/
def nonempty (s : String) : List String :=
  if s = "" then [] else [s]

/-- What the geo lookups contribute: target names, the prefix length they hold for, and the
    client's place (Go `TargetOptions.getGeoTargets`). -/
def getGeoTargets (g : Provider) (t : TargetOptions) (ip : IP) (hasClosest : Bool) :
    List String × Int × Option Location :=
  let asn := if t.has targetASN then nonempty (g.getASN ip).1 else []
  let names (country continent region regionGroup : String) : List String :=
    asn ++ (if t.has targetRegion then nonempty region else [])
      ++ (if t.has targetRegionGroup then nonempty regionGroup else [])
      ++ (if t.has targetCountry then nonempty country else [])
      ++ (if t.has targetContinent then nonempty continent else [])
  if t.has targetRegion ∨ t.has targetRegionGroup ∨ hasClosest then
    match g.getLocation ip with
    | (some l, none) => (names l.country l.continent l.region l.regionGroup, 0, some l)
    | _ => (asn, 0, none)
  else if t.has targetCountry ∨ t.has targetContinent then
    let (country, continent, netmask) := g.getCountry ip
    (names country continent "" "", netmask, none)
  else (names "" "" "" "", 0, none)

/-- The mask of the /48 network (Go `net.CIDRMask(48, 128)`). -/
def cidr48Mask : List UInt8 :=
  List.replicate 6 0xff ++ List.replicate 10 0

/-- The names of the address itself and of its /24 or /48 network, and the bytes of the address
    afterwards. -/
def ipTargets (ip : IP) : List String × IP :=
  let own := "[" ++ ip.toText ++ "]"
  match ip.to4 with
  | some ip4 =>
    if ip4.getLast? = some 0 then ([own], ip)
    else
      -- the write to `ip4[3]` goes to the last byte of `ip` as well
      ([own, "[" ++ IP.toText (ip4.dropLast ++ [0]) ++ "]"], ip.dropLast ++ [0])
  | none => ([own, "[" ++ IP.toText (IP.mask ip cidr48Mask) ++ "]"], ip)

/-- The targets of a client, their prefix length, its place, and the bytes of the address afterwards
    (Go `TargetOptions.GetTargets`); `g` is the global geo provider, if there is one. -/
def getTargets (g : Option Provider) (t : TargetOptions) (ip : IP) (hasClosest : Bool) :
    (List String × Int × Option Location) × IP :=
  let (own, ip) := if t.has targetIP then ipTargets ip else ([], ip)
  let (geo, netmask, location) :=
    match g with
    | some g => getGeoTargets g t ip hasClosest
    | none => ([], 0, none)
  ((own ++ geo ++ (if t.has targetGlobal then ["@"] else []), netmask, location), ip)

/-- One word of a targeting option list. -/
def parseTarget : String → Option TargetOptions
  | "@" => some targetGlobal
  | "country" => some targetCountry
  | "continent" => some targetContinent
  | "regiongroup" => some targetRegionGroup
  | "region" => some targetRegion
  | "asn" => some targetASN
  | "ip" => some targetIP
  | _ => none

/-- Read a targeting option list (Go `ParseTargets`): the bits of the known words, and an error text
    that names the last unknown one. -/
def parseTargets (v : String) : TargetOptions × Option String :=
  (split v ' ').foldl (fun (tgt, err) w =>
    match parseTarget w with
    | some x => (tgt ||| x, err)
    | none => (tgt, some ("Unknown targeting option '" ++ w ++ "'"))) (0, none)

end GeoDNS.Targeting
