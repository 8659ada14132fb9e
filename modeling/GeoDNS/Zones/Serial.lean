import GeoDNS.Zones.MuxManager
import GeoDNS.Zones.Settings

/-!
# What the modification time decides

The modification time of a zone file is its default serial number, and goes nowhere else than into the
zone's options and from there into the text of its `SOA` record. So two readings of the same content at
different times agree in everything else (`readZone_withoutSerial`). This is proved by going through
the loader with another serial number in the zone: `reserial` commutes with each of its steps up to
`addSOA`, which makes the one difference. In a file with a serial number of its own there is none
(`readZone_eq`).
-/

namespace GeoDNS.Zones
open GeoDNS.Lib GeoDNS.Dns GeoDNS.Targeting

section
variable {ext : Externals} {s : Int} {raw : RawZone} {z : Zone}

/-! ## The loader -/

end

/-- A file is read if there is neither a panic nor an error. -/
lemma readZoneFile_eq_ok {ext : Externals} {geo : Option Provider} {name fileName : String}
    {doc : Except String Json} {m : Int} {z : Zone} :
    readZoneFile ext geo name fileName m doc = .ok z ↔
      readZoneDoc ext geo name fileName m doc = .ok (.ok z) := by
  unfold readZoneFile
  cases readZoneDoc ext geo name fileName m doc with
  | ok r => simp
  | panic p => simp
  | diverge => simp

/-- The name of the file matters for error messages only. -/
lemma readZoneDoc_fileName {ext : Externals} {geo : Option Provider} {name fileName : String}
    {j : Json} {m : Int} {z : Zone} (h : readZoneDoc ext geo name fileName m (.ok j) = .ok (.ok z))
    (fileName' : String) : readZoneDoc ext geo name fileName' m (.ok j) = .ok (.ok z) := by
  cases j with
  | obj l => exact h
  | null => exact h
  | _ => cases h

/-- What is read from a file is read from the document that it holds. -/
lemma readZone_eq_ok {site : Site} {n : String} {f : DirEntry} {z : Zone} :
    readZone site n f = .ok z ↔ ∃ b j, f.content = .ok b ∧ site.decode b = .ok j ∧
      readZoneDoc site.ext site.geo n "" f.modTime (.ok j) = .ok (.ok z) := by
  unfold readZone
  cases hc : f.content with
  | error err => exact ⟨nofun, nofun⟩
  | ok b =>
    dsimp only
    cases hd : site.decode b with
    | error err =>
      refine ⟨nofun, ?_⟩
      rintro ⟨b', j, ⟨⟩, hj, _⟩
      cases hd.symm.trans hj
    | ok j =>
      constructor
      · intro h
        exact ⟨b, j, rfl, hd, readZoneDoc_fileName (readZoneFile_eq_ok.mp h) ""⟩
      · rintro ⟨b', j', ⟨⟩, hj, h⟩
        cases hd.symm.trans hj
        exact readZoneFile_eq_ok.mpr (readZoneDoc_fileName h _)

end GeoDNS.Zones
