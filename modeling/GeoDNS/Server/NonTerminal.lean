import GeoDNS.Server.NxDomain
import GeoDNS.Zones.SecondPass

/-!
# Names above the names of a zone file

A name that lies above a configured one exists, although the zone file does not mention it. The sub-domain
pass of the loader gives it an empty label, and `FindLabels` falls back to that label when targets,
aliases and types have all found nothing, so the name is answered without records and is not denied
(`existing_name_found`). The same holds of the zone itself, whose label comes with its `SOA` record.
-/

namespace GeoDNS.Server
open GeoDNS.Lib GeoDNS.Dns GeoDNS.Targeting GeoDNS.Zones

/-- The names that a zone file makes: the zone itself, its labels, and the names above these. -/
def Existing (doc : Json) (s : String) : Prop :=
  s = "" ∨ ∃ dk ∈ dataOf doc, s = toLower dk ∨ Behind '.' (toLower dk) s

section
variable {ext : Externals} {geo : Option Provider} {name fileName : String} {mtime : Int} {doc : Json}
variable {z : Zone} {s : String}

/-- Setting up the health tests does not change the names. -/
lemma mem_setupHealthTests (z : Zone) : s ∈ z.setupHealthTests.labels ↔ s ∈ z.labels := by
  rw [← AList.lookup_isSome, ← AList.lookup_isSome, ZoneOf.setupHealthTests, GoMap.lookup_mapVals,
    Option.isSome_map]

/-- The names that a file makes are in the zone. -/
lemma existing_mem (h : readZoneFile ext geo name fileName mtime (.ok doc) = .ok z)
    (hs : Existing doc s) : s ∈ z.labels := by
  obtain ⟨raw, z0, empty, _, setup, e⟩ := readZoneFile_setup h
  have mem : s ∈ z0.labels := (mem_setupZoneData empty setup).mpr hs
  rcases e with rfl | ⟨g, rfl⟩
  · exact mem
  · exact (mem_setLocations g z0).mpr mem

/-- A name with a label is found, whatever is asked for. -/
lemma findLabels_ne_nil {targets : List String} {qts : List RRType} {fuel : Nat} {r : List LabelMatch}
    (mem : s ∈ z.labels) (h : findLabels z targets qts fuel s = .ok r) : r ≠ [] := by
  intro empty
  exact ((value_eq_nil_iff (value_of_findLabels h)).mp empty s .refl).1 mem

/-- Every name that a zone file makes is found, and a query for it is not denied. -/
theorem existing_name_found (h : readZoneFile ext geo name fileName mtime (.ok doc) = .ok z)
    (hs : Existing doc s) :
    (∀ targets qts fuel r, findLabels z targets qts fuel s = .ok r → r ≠ []) ∧
      ∀ env srv fuel w req question rest msgs, req.question = question :: rest →
        getQuestionName z question.name = .ok s →
        serve env srv fuel w req z.setupHealthTests = .ok msgs →
        ∀ m ∈ msgs, m.rcode ≠ rcodeNameError := by
  have mem : s ∈ z.labels := existing_mem h hs
  refine ⟨fun targets qts fuel r hr => findLabels_ne_nil mem hr, ?_⟩
  intro env srv fuel w req question rest msgs hq hname hserve m hm
  rcases serve_mem hserve hm with first | rfl
  · obtain ⟨m', first', reply⟩ := serve_eq_ok hq hserve
    rw [first] at first'
    cases first'
    split_ifs at reply with parse
    · rw [reply]
      show rcodeSuccess ≠ rcodeNameError
      decide
    · obtain ⟨qlabel, found, hname', hfind, reply⟩ := reply
      -- the health tests of a zone do not change its names
      have same : getQuestionName z.setupHealthTests question.name = getQuestionName z question.name :=
        rfl
      rw [same, hname] at hname'
      cases hname'
      have ne : found ≠ [] := findLabels_ne_nil ((mem_setupHealthTests z).mpr mem) hfind
      rcases reply with ⟨empty, _⟩ | ⟨_, reply⟩
      · exact (ne empty).elim
      · rw [(matched_eq_ok reply).1]
        decide
  · show rcodeServerFailure ≠ rcodeNameError
    decide

end

/-- A zone file that mentions one name, and the name above it. -/
theorem name_above_found :
    let doc := Json.obj [("data", .obj [("www.eu", .obj [("a", .arr [.arr [.str "192.0.2.1"]])])])]
    ∃ z r, readZoneFile smallExternals none "example.com" "example.com.json" 0 (.ok doc) = .ok z ∧
      findLabels z ["dk", "@"] [typeMF, typeCNAME, typeA] 1 "eu" = .ok r ∧ r ≠ [] := by
  intro doc
  have above : Existing doc "eu" := .inr ⟨"www.eu", by decide +kernel, .inr (by decide +kernel)⟩
  obtain ⟨z, hz⟩ : ∃ z, readZoneFile smallExternals none "example.com" "example.com.json" 0 (.ok doc) =
    .ok z := ⟨_, rfl⟩
  obtain ⟨r, hr⟩ : ∃ r, findLabels z ["dk", "@"] [typeMF, typeCNAME, typeA] 1 "eu" = .ok r := by
    cases hz
    exact ⟨_, rfl⟩
  exact ⟨z, r, hz, hr, (existing_name_found hz above).1 _ _ _ _ hr⟩

end GeoDNS.Server
