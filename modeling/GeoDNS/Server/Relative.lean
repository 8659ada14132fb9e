import GeoDNS.Dns.Labels
import GeoDNS.Server.Dispatch
import GeoDNS.Server.LetterCase

/-!
# The name of a query within its zone

`serve` takes as many labels off the end of the query name as the name of the zone has, without a look at
them. That is right because the multiplexer has compared them: a query reaches a zone only if its last
labels are those of the zone (`relative_name`), whatever directories the manager has been through. So there
are always enough labels, and what is left is what stands in front of the zone's name.
-/

namespace GeoDNS.Server
open GeoDNS.Lib GeoDNS.Dns GeoDNS.Zones

/-! ## The number of labels of a zone -/

section
variable {site : Site} {n : String} {f : DirEntry} {zone z : Zone} {pgeodns : Zone} {dirs : List Listing}

/-- No setting touches the number of labels of the zone. -/
lemma applySettings_labelCount (settings : List (Σ _ : String, Setting)) (st : RawZone × GoMap String Json) :
    (settings.foldl (fun st e => e.2.apply st) st).1.labelCount = st.1.labelCount := by
  induction settings generalizing st with
  | nil => rfl
  | cons e settings ih =>
    rw [List.foldl_cons, ih]
    cases e.2 <;> rfl

/-- The options do not change the number of labels of the zone. -/
lemma readOptions_labelCount {es : List (Σ _ : String, Json)} {z z' : RawZone}
    {data data' : GoMap String Json} (h : readOptions es z data = .ok (.ok (z', data'))) :
    z'.labelCount = z.labelCount := by
  have accepts := accepted_readOptions es z data
  rw [h] at accepts
  obtain ⟨settings, _, state⟩ := Res.map_eq_ok.mp accepts.symm
  have kept := applySettings_labelCount settings (z, data)
  rw [state] at kept
  exact kept

/-- A zone that is read has as many labels as its name. -/
lemma readZoneFile_labelCount {ext : Externals} {geo : Option Targeting.Provider} {name fileName : String}
    {mtime : Int} {doc : Json} (h : readZoneFile ext geo name fileName mtime (.ok doc) = .ok z) :
    z.labelCount = countLabel name := by
  have h := readZoneFile_eq_ok.mp h
  unfold readZoneDoc at h
  dsimp only [Except.bind] at h
  cases htop : topLevel fileName doc with
  | error err =>
    rw [htop] at h
    cases h
  | ok objmap =>
    rw [htop] at h
    obtain ⟨r, hr, h⟩ := Res.bind_eq_ok.mp h
    cases r with
    | error err => cases h
    | ok r =>
      obtain ⟨raw, data⟩ := r
      obtain ⟨z0, hz0, h⟩ := Res.bind_eq_ok.mp h
      obtain ⟨⟨labels, -⟩, -⟩ := readOptions_data objmap.nodupKeys hr
      have count : z0.labelCount = countLabel name :=
        (setupZoneData_labelCount labels hz0).trans (readOptions_labelCount hr)
      rw [← count]
      cases geo with
      | none =>
        cases h
        rfl
      | some g =>
        cases h
        split <;> rfl

/-- A zone that is read has as many labels as the name it is read for. -/
lemma readZone_labelCount (h : readZone site n f = .ok zone) : zone.labelCount = countLabel n := by
  obtain ⟨b, hb⟩ := readZone_content h
  rw [readZone, hb] at h
  dsimp only at h
  cases hdoc : site.decode b with
  | error err =>
    rw [hdoc] at h
    cases h
  | ok doc =>
    rw [hdoc] at h
    exact readZoneFile_labelCount h

/-- The zone of the server itself has as many labels as its name. -/
lemma pgeodnsZone_labelCount (h : pgeodnsZone site = .ok zone) : zone.labelCount = countLabel "pgeodns" := by
  rw [(addSOA_lookup h).1]
  rfl

/-- Every zone that the manager holds is named after its file and knows how many labels that are. -/
lemma reloads_labelCount (start : pgeodnsZone site = .ok pgeodns)
    (hz : (reloads site (startManager pgeodns) dirs).zonelist.lookup n = some z) :
    n ≠ "" ∧ n ≠ "." ∧ z.origin = n ∧ z.labelCount = countLabel n := by
  refine reloads_zones (P := fun n z => n ≠ "" ∧ n ≠ "." ∧ z.origin = n ∧ z.labelCount = countLabel n)
    ?_ ?_ hz
  · have origin : pgeodns.origin = "pgeodns" := pgeodnsZone_origin start
    have count : pgeodns.labelCount = countLabel "pgeodns" := pgeodnsZone_labelCount start
    exact ⟨by decide, by decide, origin, count⟩
  · intro f n zone _ hn hread
    obtain ⟨ne, ne'⟩ := zoneFile_name hn
    have origin : zone.origin = n := readZone_origin hread
    have count : zone.labelCount = countLabel n := readZone_labelCount hread
    exact ⟨ne, ne', origin, count⟩

end

/-! ## The labels in front -/

section
variable {q n : String} {z : Zone}

/-- The last labels of a query for a pattern are those of the pattern. -/
lemma labels_of_mem (h : fqdn n ∈ lookupNames q) (ne : n ≠ "") (ne' : n ≠ ".") :
    ∃ front back, splitDomainName q = front ++ back ∧
      back.map asciiLower = splitDomainName (fqdn n) := by
  have lowered : ∃ front, (splitDomainName q).map asciiLower = front ++ splitDomainName (fqdn n) := by
    rw [← splitDomainName_asciiLower]
    rcases mem_lookupNames.mp h with e | ⟨head, e, _, separates⟩
    · exact ⟨[], by rw [e, List.nil_append]⟩
    · have name : asciiLower q = String.ofList (head ++ '.' :: (fqdn n).toList) := by
        rw [← e, String.ofList_toList]
      exact ⟨_, by rw [name, splitDomainName_below separates fqdn_ne_empty (fqdn_ne_root ne ne')]⟩
  obtain ⟨front, lowered⟩ := lowered
  obtain ⟨front', back, e, -, hback⟩ := List.map_eq_append_iff.mp lowered
  exact ⟨front', back, e, hback⟩

/-- Taking off the labels of the zone leaves what stands in front of them. -/
lemma getQuestionName_front {front back : List String} (labels : splitDomainName q = front ++ back)
    (count : back.length = z.labelCount) :
    getQuestionName z q = .ok (toLower (join front '.')) := by
  have enough : ¬ (front ++ back).length < z.labelCount := by
    rw [List.length_append]
    omega
  have split : (front ++ back).length - z.labelCount = front.length := by
    rw [List.length_append]
    omega
  unfold getQuestionName
  rw [labels]
  dsimp only
  rw [if_neg enough, split, List.take_left]

end

section
variable {site : Site} {pgeodns : Zone} {dirs : List Listing} {req : Msg} {question : Question}
variable {rest : List Question} {m : Muxes} {h : Handler}

/-- A handler that is found is that of a zone which the manager holds, under a name that is looked up. -/
lemma handlerFor_zone (start : pgeodnsZone site = .ok pgeodns)
    (muxes : muxesAfter (reloads site (startManager pgeodns) dirs).reg = .ok m)
    (asks : req.question = question :: rest) (found : m.mux.handlerFor req = some h) :
    ∃ n z, h = .zone z ∧ (reloads site (startManager pgeodns) dirs).zonelist.lookup n = some z ∧
      fqdn n ∈ lookupNames question.name := by
  have named : Named {n | n ≠ "" ∧ n ≠ "."} (reloads site (startManager pgeodns) dirs) :=
    reloads_named start (by decide) (fun _ _ _ hn => zoneFile_name hn)
  have registered := reloads_registered site pgeodns dirs
  obtain ⟨m', muxes', mirrors, -⟩ := muxesAfter_mirrors named.calls (fun n hn => hn.1)
  cases muxes.symm.trans muxes'
  rw [ServeMux.handlerFor, asks] at found
  rcases ServeMux.of_matchName found with ⟨s, hs, hz⟩ | root
  · obtain ⟨n, z, rfl, rfl, hn⟩ := mirrors hz
    rw [registered] at hn
    exact ⟨n, z, rfl, hn, hs⟩
  · -- no zone is the root
    obtain ⟨n, z, e, -, hn⟩ := mirrors root
    rw [registered] at hn
    obtain ⟨ne, ne'⟩ := (named.zones hn).1
    exact (fqdn_ne_root ne ne' e).elim

/-- A query that is handed to a zone has at least as many labels as the zone. -/
lemma handlerFor_named (start : pgeodnsZone site = .ok pgeodns)
    (muxes : muxesAfter (reloads site (startManager pgeodns) dirs).reg = .ok m)
    (asks : req.question = question :: rest) (found : m.mux.handlerFor req = some h) :
    ∃ n z, h = .zone z ∧ (reloads site (startManager pgeodns) dirs).zonelist.lookup n = some z ∧
      fqdn n ∈ lookupNames question.name ∧ ∃ s, getQuestionName z question.name = .ok s := by
  obtain ⟨n, z, rfl, hz, mem⟩ := handlerFor_zone start muxes asks found
  obtain ⟨ne, ne', -, count⟩ := reloads_labelCount start hz
  obtain ⟨front, back, labels, tail⟩ := labels_of_mem mem ne ne'
  have backs : back.length = countLabel (fqdn n) := by
    rw [← splitDomainName_length fqdn_ne_empty (fqdn_ne_root ne ne'), ← tail, List.length_map]
  have enough := countLabel_le_fqdn ne' (fqdn_ne_root ne ne')
  refine ⟨n, z, rfl, hz, mem, ?_⟩
  unfold getQuestionName
  rw [labels]
  dsimp only
  rw [if_neg (by rw [List.length_append]; omega)]
  exact ⟨_, rfl⟩

/-- In every run of the manager, and for every query that is handed to a zone: it is a zone that the manager
    holds, the last labels of the query are those of its name, whatever their case, and taking off the
    zone's labels does not run out of labels. It leaves the labels in front, in lower case, unless the name
    of the zone has a final dot that is not taken for one. -/
theorem relative_name (start : pgeodnsZone site = .ok pgeodns)
    (muxes : muxesAfter (reloads site (startManager pgeodns) dirs).reg = .ok m)
    (asks : req.question = question :: rest) (found : m.mux.handlerFor req = some h) :
    ∃ n z, h = .zone z ∧ (reloads site (startManager pgeodns) dirs).zonelist.lookup n = some z ∧
      z.origin = n ∧ ∃ front back, splitDomainName question.name = front ++ back ∧
        back.map asciiLower = splitDomainName (fqdn n) ∧
        (∃ s, getQuestionName z question.name = .ok s) ∧
        ((endsWith n "." = true → isFqdn n = true) →
          getQuestionName z question.name = .ok (toLower (join front '.'))) := by
  obtain ⟨n, z, rfl, hz, mem, name⟩ := handlerFor_named start muxes asks found
  obtain ⟨ne, ne', origin, count⟩ := reloads_labelCount start hz
  obtain ⟨front, back, labels, tail⟩ := labels_of_mem mem ne ne'
  refine ⟨n, z, rfl, hz, origin, front, back, labels, tail, name, ?_⟩
  intro plain
  apply getQuestionName_front labels
  rw [count, ← countLabel_fqdn ne' (fqdn_ne_root ne ne') plain,
    ← splitDomainName_length fqdn_ne_empty (fqdn_ne_root ne ne'), ← tail, List.length_map]

/-- A query in mixed case for a name in the zone `example.com`, and its name within the zone. -/
theorem small_relative_name : ∃ pgeodns m z, pgeodnsZone smallSite = .ok pgeodns ∧
    muxesAfter (smallRun pgeodns "example.com.json").reg = .ok m ∧
    m.mux.handlerFor (addressQuery "WWW.Example.com.") = some (.zone z) ∧
    ∃ s, getQuestionName z "WWW.Example.com." = .ok s := by
  obtain ⟨pgeodns, start⟩ : ∃ pgeodns, pgeodnsZone smallSite = .ok pgeodns := ⟨_, rfl⟩
  obtain ⟨m, muxes, h, found⟩ : ∃ m, muxesAfter (smallRun pgeodns "example.com.json").reg = .ok m ∧
      ∃ h, m.mux.handlerFor (addressQuery "WWW.Example.com.") = some h := by
    cases start
    exact ⟨_, rfl, _, rfl⟩
  obtain ⟨n, z, rfl, -, -, -, -, -, -, named, -⟩ := relative_name start muxes rfl found
  exact ⟨pgeodns, m, z, start, muxes, found, named⟩

end
end GeoDNS.Server
