import GeoDNS.Server.Answers
import GeoDNS.Server.AliasLeak
import GeoDNS.Zones.Qualified

/-!
# Where answers come from

A record of an answer has a long way behind it: an entry of a zone file is read into a record of a label, the
label is found for a name and a target of the client, the record is picked among others and gets the name that
was asked for. `answers_have_origin` follows it back: whatever the manager has been through and whatever is
asked, a record of an answer stands in a file of its zone, with its type, its data and its TTL, at a label
that the lookup of the query name comes to, and it is of a type that was asked for. The server makes up no
records but the `SOA` record of a zone, the texts of its debugging names and the addresses of a zone with
`parseip`.

`reloads_fromEntry` goes from the zones that are held back to the files, `serve_origin` from the answer back
to the zone.
-/

namespace GeoDNS.Server
open GeoDNS.Lib GeoDNS.Dns GeoDNS.Health GeoDNS.Targeting GeoDNS.Zones

/-! ## From a zone to its file -/

/-- The record is that of an entry for the label `k` in a file of the zone `n` that was listed. It has the
    type and the data of the entry, and the TTL of the label. -/
def FromEntry (site : Site) (dirs : List Listing) (n : String) (zoneTtl : Int) (k : String) (rr : RR) :
    Prop :=
  ∃ f b doc dk fields entries e r, Listed dirs f ∧ zoneFile f = some n ∧ f.content = .ok b ∧
    site.decode b = .ok doc ∧ (dataOf doc).lookup dk = some (.obj fields) ∧
    Lists (dataOf doc) k rr.hdr.rrtype dk entries ∧ e ∈ entries ∧
    readRecord n k dk rr.hdr.rrtype e = .ok (some r) ∧ rr.data = r.rr.data ∧
    rr.hdr.ttl = defaultTtl zoneTtl (ttlOf (Json.fields fields)) rr.hdr.rrtype

section
variable {site : Site} {pgeodns z zone : Zone} {dirs : List Listing} {n k : String} {f : DirEntry}
variable {l : Label} {t : RRType} {rs : List Record} {r : Record}

/-- The records of a file that is accepted, other than the `SOA` record, are those of its entries. -/
lemma readZone_fromEntry (listed : Listed dirs f) (file : zoneFile f = some n)
    (h : readZone site n f = .ok zone) (hl : zone.labels.lookup k = some l)
    (hrec : l.recordsOf t = some rs) (hr : r ∈ rs) (other : t ≠ typeSOA) :
    FromEntry site dirs n zone.options.ttl k r.rr := by
  have type : r.rr.hdr.rrtype = t := (((readZone_loaded h).loaded.filed hl).types hrec hr other).hdr
  obtain ⟨b, doc, content, decoded, h⟩ := readZone_eq_ok.mp h
  obtain ⟨dk, fields, entries, read, hdk, lists, each, datas, ttls⟩ :=
    readZoneFile_list (readZoneFile_eq_ok.mpr h) hl hrec other
  -- the data is that of a record that was read from an entry
  have mem : r.rr.data ∈ read.map (fun r => r.rr.data) := datas.subset (List.mem_map_of_mem hr)
  obtain ⟨r0, hr0, same⟩ := List.mem_map.mp mem
  have entries_read : entries.mapM (readRecord n k dk t) = .ok (read.map some) :=
    Res.mapM_eq_ok.mpr (List.forall₂_map_right_iff.mpr each)
  obtain ⟨e, he, hread⟩ := Res.mem_of_mapM entries_read (List.mem_map_of_mem hr0)
  subst type
  exact ⟨f, b, doc, dk, fields, entries, e, r0, listed, file, content, decoded, hdk, lists, he, hread,
    same.symm, ttls r hr⟩

/-- So it is for the zones that are held, and their `SOA` records are the ones that were added to them. -/
lemma reloads_fromEntry (start : pgeodnsZone site = .ok pgeodns)
    (hz : (reloads site (startManager pgeodns) dirs).zonelist.lookup n = some z) :
    Loaded site.ext z ∧ ∀ {k l t rs r}, z.labels.lookup k = some l → l.recordsOf t = some rs → r ∈ rs →
      t ≠ typeSOA → FromEntry site dirs n z.options.ttl k r.rr := by
  refine reloads_zones (P := fun n z => Loaded site.ext z ∧ ∀ {k l t rs r}, z.labels.lookup k = some l →
    l.recordsOf t = some rs → r ∈ rs → t ≠ typeSOA → FromEntry site dirs n z.options.ttl k r.rr) ?_ ?_ hz
  · refine ⟨(pgeodnsZone_loaded start).retouch retouched_setupHealthTests, ?_⟩
    intro k l' t rs' r hl' hrec' hr other
    rw [lookup_setupHealthTests] at hl'
    obtain ⟨l, hl, rfl⟩ := Option.map_eq_some_iff.mp hl'
    obtain ⟨rs, f, -, hrec, -⟩ := (retouched_setupHealthTests l).of_recordsOf hrec'
    -- the manager's own zone has no other records
    obtain ⟨soa, only⟩ := pgeodnsZone_records start
    rw [(only hl).2, if_neg other] at hrec
    cases hrec
  · intro f n zone listed file read
    refine ⟨(readZone_loaded read).tested.loaded, ?_⟩
    intro k l' t rs' r' hl' hrec' hr' other
    rw [lookup_setupHealthTests] at hl'
    obtain ⟨l, hl, rfl⟩ := Option.map_eq_some_iff.mp hl'
    obtain ⟨rs, g, same, hrec, rfl⟩ := (retouched_setupHealthTests l).of_recordsOf hrec'
    obtain ⟨r, hr, rfl⟩ := List.mem_map.mp hr'
    have entry : FromEntry site dirs n zone.options.ttl k r.rr :=
      readZone_fromEntry listed file read hl hrec hr other
    rw [(same r).1]
    exact entry

end

/-! ## From an answer to its zone -/

/-- The lookup of `s`, for a query of type `q` and a client with these targets, comes to the label `k`: the
    aliases lead from `s` to a name, and `k` is this name with a target. A query for `ANY` takes the label of
    the name itself. -/
def ComesTo (z : Zone) (targets : List String) (q : RRType) (s k : String) : Prop :=
  ∃ a, AliasReach z targets [typeMF, typeCNAME, q] s a ∧
    ((q = typeANY ∧ k = a) ∨ ∃ target ∈ targets, k = targetName a target)

/-- What a record of an answer can be. -/
inductive Origin (site : Site) (dirs : List Listing) (srv : ServerConfig) (asker : Asker) (n : String)
    (z : Zone) (question : Question) : RR → Prop
  -- the record of an entry in a file of the zone, under the name that is asked for
  | entry {s k rr} (name : getQuestionName z question.name = .ok s)
      (found : ComesTo z asker.targets question.qtype s k)
      (type : rr.hdr.rrtype = typeCNAME ∨ rr.hdr.rrtype = question.qtype ∨ question.qtype = typeANY)
      (read : FromEntry site dirs n z.options.ttl k rr) :
      Origin site dirs srv asker n z question (rr.setName question.name)
  -- the `SOA` record of the zone
  | soa {s ns rr} (name : getQuestionName z question.name = .ok s)
      (found : ComesTo z asker.targets question.qtype s "")
      (type : question.qtype = typeSOA ∨ question.qtype = typeANY)
      (made : site.ext.newRR (soaText z.origin z.options ns) = .ok rr) :
      Origin site dirs srv asker n z question (rr.setName question.name)
  -- the text of a debugging name
  | text {s rr} (name : getQuestionName z question.name = .ok s) (own : ownName srv asker s)
      (type : rr.hdr.rrtype = typeTXT) : Origin site dirs srv asker n z question rr
  -- the address that the name stands for
  | address (parse : z.parseIP) (type : question.qtype = typeA) :
      Origin site dirs srv asker n z question
        ⟨⟨question.name, typeA, classINET, 86400⟩, .a ((getIPFromDomain question.name).getD [])⟩

section
variable {site : Site} {dirs : List Listing} {env : Env} {srv : ServerConfig} {w : RemoteAddr}
variable {req msg : Msg} {question : Question} {rest : List Question} {msgs : List Msg} {fuel : Nat}
variable {z : Zone} {rr : RR} {s n qname : String} {targets : List String} {q : RRType} {l : Label}
variable {labelMatches : List LabelMatch} {found : LabelMatch} {answer : List RR}

/-- The label of a match, unless it stands for itself with type 0. -/
lemma match_comesTo (h : findLabels z targets [typeMF, typeCNAME, q] fuel s = .ok labelMatches)
    (hm : found ∈ labelMatches) (hl : found.label = some l) :
    found.type = 0 ∨ ∃ k, z.labels.lookup k = some l ∧ ComesTo z targets q s k ∧
      (found.type = typeCNAME ∨ found.type = q) := by
  obtain ⟨a, reach, own | ⟨l, -, rfl⟩⟩ := mem_of_value (value_of_findLabels h) hm
  · right
    cases own with
    | any hany _ _ =>
      have any : q = typeANY := by
        rcases List.mem_cons.mp hany with e | hany
        · exact absurd e (by decide)
        · rcases List.mem_cons.mp hany with e | hany
          · exact absurd e (by decide)
          · exact (List.mem_singleton.mp hany).symm
      exact ⟨a, hl, ⟨a, reach, .inl ⟨any, rfl⟩⟩, .inr any.symm⟩
    | @records target l' type r rs hmem _ hmf htarget hl' _ =>
      cases hl
      refine ⟨_, hl', ⟨a, reach, .inr ⟨target, htarget, rfl⟩⟩, ?_⟩
      rcases List.mem_cons.mp hmem with e | hmem
      · exact (hmf e).elim
      · rcases List.mem_cons.mp hmem with e | hmem
        · exact .inl e
        · exact .inr (List.mem_singleton.mp hmem)
  · exact .inl rfl

/-- The record of a match has its origin in the zone. -/
lemma AnswersWith.origin {asker : Asker} (h : AnswersWith env question.name found answer)
    (hrr : rr ∈ answer) (loaded : Loaded site.ext z)
    (files : ∀ {k l t rs r}, z.labels.lookup k = some l → l.recordsOf t = some rs → r ∈ rs →
      t ≠ typeSOA → FromEntry site dirs n z.options.ttl k r.rr)
    (name : getQuestionName z question.name = .ok s)
    (hfind : findLabels z asker.targets [typeMF, typeCNAME, question.qtype] fuel s = .ok labelMatches)
    (hm : found ∈ labelMatches) : Origin site dirs srv asker n z question rr := by
  obtain ⟨l, t, rs, r, hl, hrec, hr, picked, rfl⟩ := h.mem hrr
  have any : typeANY ≠ 0 ∧ typeCNAME ≠ typeANY ∧ typeCNAME ≠ typeSOA := by decide
  rcases match_comesTo hfind hm hl with zero | ⟨k, hk, comes, type⟩
  · -- no records are filed under type 0
    obtain ⟨-, k, hk⟩ := And.imp_right (fun labels => labels l hl) (match_label hfind hm)
    rw [picked (by rw [zero]; exact any.1.symm), zero, (loaded.filed hk).absent (.inr rfl)] at hrec
    cases hrec
  · have asked : t = typeCNAME ∨ t = question.qtype ∨ question.qtype = typeANY := by
      rcases type with cname | same
      · left
        rw [picked (by rw [cname]; exact any.2.1), cname]
      · by_cases wild : question.qtype = typeANY
        · exact .inr (.inr wild)
        · exact .inr (.inl (by rw [picked (by rw [same]; exact wild), same]))
    by_cases soa : t = typeSOA
    · subst soa
      have root : k = "" := by
        by_contra ne
        rw [loaded.soa_only hk ne] at hrec
        cases hrec
      subst root
      obtain ⟨l', ns, r', hl', hrec', made⟩ := loaded.soa
      cases hk.symm.trans hl'
      cases hrec.symm.trans hrec'
      cases List.mem_singleton.mp hr
      refine .soa name comes ?_ made
      rcases asked with e | e | e
      · exact (any.2.2 e.symm).elim
      · exact .inl e.symm
      · exact .inr e
    · have header : r.rr.hdr.rrtype = t := ((loaded.filed hk).types hrec hr soa).hdr
      subst header
      exact .entry name comes asked (files hk hrec hr soa)

/-- Every record that a zone answers has its origin there. -/
lemma serve_origin (loaded : Loaded site.ext z)
    (files : ∀ {k l t rs r}, z.labels.lookup k = some l → l.recordsOf t = some rs → r ∈ rs →
      t ≠ typeSOA → FromEntry site dirs n z.options.ttl k r.rr)
    (asks : req.question = question :: rest) (h : serve env srv fuel w req z = .ok msgs)
    (hmsg : msg ∈ msgs) (hrr : rr ∈ msg.answer) :
    Origin site dirs srv (askerOf env w req z) n z question rr := by
  obtain ⟨first, hfirst, reply⟩ := serve_eq_ok asks h
  rcases serve_mem h hmsg with head | rfl
  · cases hfirst.symm.trans head
    split_ifs at reply with parse
    · subst reply
      cases List.mem_singleton.mp hrr
      exact .address parse.2 parse.1
    · obtain ⟨s, labelMatches, name, hfind, ⟨-, hreply⟩ | ⟨-, hreply⟩⟩ := reply
      · rcases noMatch_eq_ok hreply with ⟨own, -⟩ | ⟨-, -, empty, -⟩
        · exact .text name own (noMatch_answer hreply rr hrr)
        · rw [empty] at hrr
          cases hrr
      · obtain ⟨-, hloop, -⟩ := matched_eq_ok hreply
        obtain ⟨pre, -, ⟨empty, -⟩ | ⟨-, found, post, e, answers⟩⟩ := answerLoop_eq_ok hloop
        · rw [empty] at hrr
          cases hrr
        · have mem : found ∈ labelMatches := by simp [e]
          exact answers.origin hrr loaded files name hfind mem
  · -- a failure has no answer
    cases hrr

/-- In every run of the manager, for every client and every query, and whatever is answered: each record of
    the answer is that of an entry in a file of a zone that is held and encloses the name, at a label that the
    lookup comes to and of a type that is asked for; or it is the `SOA` record of the zone, the text of a
    debugging name, or the address that a name of a zone with `parseip` stands for. -/
theorem answers_have_origin {pgeodns : Zone} {m : Muxes} (start : pgeodnsZone site = .ok pgeodns)
    (muxes : muxesAfter (reloads site (startManager pgeodns) dirs).reg = .ok m)
    (asks : req.question = question :: rest) (h : serveDNS env srv fuel w m req = .ok msgs)
    (hmsg : msg ∈ msgs) (hrr : rr ∈ msg.answer) :
    ∃ n z, (reloads site (startManager pgeodns) dirs).zonelist.lookup n = some z ∧
      fqdn n ∈ lookupNames question.name ∧
      Origin site dirs srv (askerOf env w req z) n z question rr := by
  unfold serveDNS at h
  cases hfound : m.mux.handlerFor req with
  | none =>
    rw [hfound] at h
    cases h
    cases List.mem_singleton.mp hmsg
    cases hrr
  | some handler =>
    rw [hfound] at h
    obtain ⟨n, z, rfl, hz, encloses⟩ := handlerFor_zone start muxes asks hfound
    obtain ⟨loaded, files⟩ := reloads_fromEntry start hz
    exact ⟨n, z, hz, encloses, serve_origin loaded files asks h hmsg hrr⟩

end

/-- A site whose zone files have an alias and an address that it leads to. -/
def aliasSite : Site :=
  { smallSite with
    decode := fun _ => .ok (.obj [("data", .obj [("www", .obj [("alias", .str "web")]),
      ("web", .obj [("a", .arr [.arr [.str "192.0.2.1", .str "10"]])])])]) }

/-- The address is answered for the alias. -/
theorem aliased_address_origin : ∃ pgeodns m msg rr, pgeodnsZone aliasSite = .ok pgeodns ∧
    muxesAfter (reloads aliasSite (startManager pgeodns) [.ok [smallFile 1]]).reg = .ok m ∧
    serveDNS smallEnv smallServer 2 smallClient m (addressQuery "www.example.com.") = .ok [msg] ∧
    msg.answer = [rr] ∧ rr.hdr.rrtype = typeA ∧
    ∃ n z, (reloads aliasSite (startManager pgeodns) [.ok [smallFile 1]]).zonelist.lookup n = some z ∧
      fqdn n ∈ lookupNames "www.example.com." ∧
      Origin aliasSite [.ok [smallFile 1]] smallServer
        (askerOf smallEnv smallClient (addressQuery "www.example.com.") z) n z
        ⟨"www.example.com.", typeA, classINET⟩ rr := by
  obtain ⟨pgeodns, start⟩ : ∃ pgeodns, pgeodnsZone aliasSite = .ok pgeodns := ⟨_, rfl⟩
  obtain ⟨m, msg, rr, muxes, served, answer, type⟩ : ∃ m msg rr,
      muxesAfter (reloads aliasSite (startManager pgeodns) [.ok [smallFile 1]]).reg = .ok m ∧
      serveDNS smallEnv smallServer 2 smallClient m (addressQuery "www.example.com.") = .ok [msg] ∧
      msg.answer = [rr] ∧ rr.hdr.rrtype = typeA := by
    cases start
    exact ⟨_, _, _, rfl, rfl, rfl, rfl⟩
  have hrr : rr ∈ msg.answer := by
    rw [answer]
    exact List.mem_singleton_self rr
  have asks : (addressQuery "www.example.com.").question = [⟨"www.example.com.", typeA, classINET⟩] := rfl
  have origin := answers_have_origin start muxes asks served (List.mem_singleton_self msg) hrr
  exact ⟨pgeodns, m, msg, rr, start, muxes, served, answer, type, origin⟩

end GeoDNS.Server
