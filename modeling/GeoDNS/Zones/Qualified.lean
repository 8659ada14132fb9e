import GeoDNS.Zones.Representation

/-!
# Names on the wire

The library packs a domain name only if it is fully qualified, and the loader makes names so in a way of
its own for each record type: a dot is added to a mail server that does not end in one, `dns.Fqdn` is
applied to name servers and to the targets of `CNAME` records, the origin is added to the targets of `SRV`
records without a dot after it, and nothing is done to those of `PTR` records. Both kinds of addresses are
read by one parser.

`readRecord_made` says what is made of the text of an entry, and `wire_ready_iff` which texts come out
right.
-/

namespace GeoDNS.Zones
open GeoDNS.Lib GeoDNS.Dns GeoDNS.Targeting

/-- The name or address that an entry of type `t` gives. -/
def written (t : RRType) (e : Entry) : Res String :=
  if t = typeA ∨ t = typeAAAA ∨ t = typePTR then Prod.fst <$> addressFields t (overrideTest e) e
  else if t = typeMX then do
    let r ← e.asObj
    (Json.getKey r "mx").asStr
  else if t = typeSRV then do
    let r ← e.asObj
    (Json.getKey r "target").asStr
  else if t = typeCNAME then Prod.fst <$> cnameFields (overrideTest e) e
  else if t = typeNS then
    match e with
    | .json (.str s) => .ok s
    | .pair ns _ => .ok ns
    | _ => .panic (.explicit "Unrecognized NS format/syntax")
  else .ok ""

/-- The data of a record can be packed: its names are fully qualified, and an address is of the family of
    its record type. -/
def WireReady : RData → Prop
  | .a ip => (IP.to4 ip).isSome
  | .aaaa ip => IP.to4 ip = none
  | .ptr name => isFqdn name
  | .mx _ name => isFqdn name
  | .srv _ _ _ name => isFqdn name
  | .cname name => isFqdn name
  | .ns name => isFqdn name
  | _ => True

/-- The target of the record is that of the zone, if the text `s` is relative. -/
def Completed (origin s : String) : RData → Prop
  | .srv _ _ _ target => isFqdn s = false → target = s ++ "." ++ origin ++ "."
  | .cname target => isFqdn s = false → target = s ++ "." ++ origin ++ "."
  | _ => True

/-- The texts of which the loader makes records that can be packed. -/
def Wireable (origin : String) (t : RRType) (s : String) : Prop :=
  if t = typeA then ((IP.parseIP s).bind IP.to4).isSome = true
  else if t = typeAAAA then (IP.parseIP s).bind IP.to4 = none
  else if t = typePTR ∨ t = typeSRV then isFqdn s = true
  else if t = typeMX then isFqdn s = true ∨ (endsWith s "." = false ∧ escapesDot s = false)
  else if t = typeNS then isFqdn s = true ∨ escapesDot s = false
  else if t = typeCNAME then isFqdn s = true ∨
    (isFqdn (s ++ "." ++ origin) = false ∧ escapesDot (s ++ "." ++ origin) = false)
  else True

/-- What the loader makes of the text of an entry. -/
inductive Made (origin : String) : RRType → String → RData → Prop
  | a {s x} : IP.parseIP s = some x → Made origin typeA s (.a x)
  | aaaa {s x} : IP.parseIP s = some x → Made origin typeAAAA s (.aaaa x)
  | ptr {s} : Made origin typePTR s (.ptr s)
  | mx {s pref} : Made origin typeMX s (.mx pref (if endsWith s "." then s else s ++ "."))
  | srv {s p w q} : Made origin typeSRV s (.srv p w q (if isFqdn s then s else s ++ "." ++ origin))
  | cname {s} : Made origin typeCNAME s (.cname (fqdn (if isFqdn s then s else s ++ "." ++ origin)))
  | ns {s} : Made origin typeNS s (.ns (fqdn s))
  | mf {s mf} : Made origin typeMF s (.mf mf)
  | txt {s txt} : Made origin typeTXT s (.txt txt)
  | spf {s txt} : Made origin typeSPF s (.spf txt)

section
variable {origin label dk s : String} {t : RRType} {h : Header} {test : String} {e : Entry} {r : Record}
variable {d : RData}

/-- What is read for an address or a pointer. -/
lemma readAddress_made (ok : readAddress t h dk (overrideTest e) e = .ok r)
    (ht : t = typeA ∨ t = typeAAAA ∨ t = typePTR) :
    ∃ s, written t e = .ok s ∧ Made origin t s r.rr.data := by
  obtain ⟨⟨s, weight, test'⟩, hs, ok⟩ := Res.bind_eq_ok.mp ok
  have text : written t e = .ok s := (if_pos ht).trans (Res.map_eq_ok.mpr ⟨_, hs, rfl⟩)
  refine ⟨s, text, ?_⟩
  rcases ht with rfl | rfl | rfl
  · obtain ⟨x, hx, ok⟩ := Res.bind_eq_ok.mp ok
    cases ok
    exact .a (Res.get_eq_ok.mp hx)
  · obtain ⟨x, hx, ok⟩ := Res.bind_eq_ok.mp ok
    cases ok
    exact .aaaa (Res.get_eq_ok.mp hx)
  · cases ok
    exact .ptr

/-- The name of a mail server is made of what is written. -/
lemma readMX_made (ok : readMX h test e = .ok r) :
    ∃ s, written typeMX e = .ok s ∧ Made origin typeMX s r.rr.data := by
  obtain ⟨fields, mx, pref, hf, hmx, _, rr⟩ := readMX_fields ok
  rw [rr]
  exact ⟨mx, Res.bind_eq_ok.mpr ⟨fields, hf, hmx⟩, .mx⟩

/-- The name of a service is made of what is written. -/
lemma readSRV_made (ok : readSRV origin h test e = .ok r) :
    ∃ s, written typeSRV e = .ok s ∧ Made origin typeSRV s r.rr.data := by
  obtain ⟨fields, target, _, _, _, hf, ht, _, _, _, rr⟩ := readSRV_fields ok
  rw [rr]
  exact ⟨target, Res.bind_eq_ok.mpr ⟨fields, hf, ht⟩, .srv⟩

/-- A canonical name is made of what is written. -/
lemma readCNAME_made (ok : readCNAME origin h (overrideTest e) e = .ok r) :
    ∃ s, written typeCNAME e = .ok s ∧ Made origin typeCNAME s r.rr.data := by
  obtain ⟨⟨s, weight, test'⟩, hs, ok⟩ := Res.bind_eq_ok.mp ok
  cases ok
  exact ⟨s, Res.map_eq_ok.mpr ⟨_, hs, rfl⟩, .cname⟩

/-- The name of a name server is made of what is written. -/
lemma readNS_made (ok : readNS h test e = .ok r) :
    ∃ s, written typeNS e = .ok s ∧ Made origin typeNS s r.rr.data := by
  unfold readNS at ok
  split at ok
  · cases ok
    exact ⟨_, rfl, .ns⟩
  · cases ok
    exact ⟨_, rfl, .ns⟩
  · cases ok

/-- What the loader makes of an entry. -/
lemma readRecord_made (ok : readRecord origin label dk t e = .ok (some r)) :
    ∃ s, written t e = .ok s ∧ Made origin t s r.rr.data := by
  have type := (readRecord_rr ok).2
  obtain ⟨d, hd⟩ : ∃ d, r.rr.data = d := ⟨_, rfl⟩
  rw [hd] at type
  -- the data tells the type
  cases d with
  | a ip =>
    obtain rfl : t = typeA := type.symm
    exact readAddress_made (Res.map_some_eq_ok.mp ok) (.inl rfl)
  | aaaa ip =>
    obtain rfl : t = typeAAAA := type.symm
    exact readAddress_made (Res.map_some_eq_ok.mp ok) (.inr (.inl rfl))
  | ptr name =>
    obtain rfl : t = typePTR := type.symm
    exact readAddress_made (Res.map_some_eq_ok.mp ok) (.inr (.inr rfl))
  | mx pref name =>
    obtain rfl : t = typeMX := type.symm
    exact readMX_made (Res.map_some_eq_ok.mp ok)
  | srv p w q name =>
    obtain rfl : t = typeSRV := type.symm
    exact readSRV_made (Res.map_some_eq_ok.mp ok)
  | cname name =>
    obtain rfl : t = typeCNAME := type.symm
    exact readCNAME_made (Res.map_some_eq_ok.mp ok)
  | ns name =>
    obtain rfl : t = typeNS := type.symm
    exact readNS_made (Res.map_some_eq_ok.mp ok)
  | mf name =>
    obtain rfl : t = typeMF := type.symm
    rw [hd]
    exact ⟨"", rfl, .mf⟩
  | txt text =>
    obtain rfl : t = typeTXT := type.symm
    rw [hd]
    exact ⟨"", rfl, .txt⟩
  | spf text =>
    obtain rfl : t = typeSPF := type.symm
    rw [hd]
    exact ⟨"", rfl, .spf⟩
  | soa =>
    obtain rfl : t = typeSOA := type.symm
    cases ok
  | opt options =>
    obtain rfl : t = typeOPT := type.symm
    cases ok

/-- The dot that is added makes a name fully qualified unless it is escaped. -/
lemma isFqdn_fqdn (s : String) : isFqdn (fqdn s) = true ↔ isFqdn s = true ∨ escapesDot s = false := by
  unfold fqdn
  by_cases full : isFqdn s = true
  · rw [if_pos full]
    exact iff_of_true full (.inl full)
  · rw [if_neg full, isFqdn_append_dot]
    simp [full]

/-- A name changes when a dot is added. -/
lemma ne_append_dot (s : String) : s ≠ s ++ "." := by
  intro e
  have length := congrArg String.length e
  rw [String.length_append s "."] at length
  have dot : ".".length = 1 := rfl
  omega

/-- A name that does not end in a dot is not fully qualified. -/
lemma isFqdn_of_not_endsWith (h : ¬ endsWith s "." = true) : isFqdn s = false := by
  refine isFqdn_of_not_dot (fun cs e => h ?_)
  have e' := congrArg List.reverse e
  rw [List.reverse_reverse, List.reverse_cons] at e'
  rw [endsWith, e']
  exact List.isSuffixOf_iff_suffix.mpr (List.suffix_append _ _)

/-- What is made of a text is right exactly if the text is one of those. -/
lemma Made.ready_iff (made : Made origin t s d) :
    WireReady d ∧ Completed origin s d ↔ Wireable origin t s := by
  cases made with
  | a hx =>
    show _ ↔ ((IP.parseIP s).bind IP.to4).isSome = true
    rw [hx]
    exact and_iff_left trivial
  | aaaa hx =>
    show _ ↔ (IP.parseIP s).bind IP.to4 = none
    rw [hx]
    exact and_iff_left trivial
  | ptr => exact and_iff_left trivial
  | srv =>
    show _ ↔ isFqdn s = true
    dsimp only [WireReady, Completed]
    by_cases full : isFqdn s = true
    · rw [if_pos full]
      exact iff_of_true ⟨full, fun rel => absurd full (by simp [rel])⟩ full
    · -- the origin is there, the dot is not
      rw [if_neg full]
      refine iff_of_false ?_ full
      rintro ⟨_, completed⟩
      exact ne_append_dot _ (completed (by simpa using full))
  | mx =>
    show _ ↔ isFqdn s = true ∨ (endsWith s "." = false ∧ escapesDot s = false)
    dsimp only [WireReady, Completed]
    rw [and_true]
    by_cases dot : endsWith s "." = true
    · rw [if_pos dot]
      simp [dot]
    · rw [if_neg dot, isFqdn_append_dot]
      simp [dot, isFqdn_of_not_endsWith dot]
  | ns => exact (and_iff_left trivial).trans (isFqdn_fqdn s)
  | cname =>
    show _ ↔ isFqdn s = true ∨
      (isFqdn (s ++ "." ++ origin) = false ∧ escapesDot (s ++ "." ++ origin) = false)
    dsimp only [WireReady, Completed]
    by_cases full : isFqdn s = true
    · rw [if_pos full, isFqdn_fqdn]
      exact iff_of_true ⟨.inl full, fun rel => absurd full (by simp [rel])⟩ (.inl full)
    · rw [if_neg full, isFqdn_fqdn]
      have rel : isFqdn s = false := by simpa using full
      generalize s ++ "." ++ origin = target
      by_cases there : isFqdn target = true
      · -- an origin with a dot of its own
        rw [fqdn, if_pos there]
        refine iff_of_false (fun h => ne_append_dot target (h.2 rel)) ?_
        simp [rel, there]
      · rw [fqdn, if_neg there]
        simp [rel, there]
  | mf => exact iff_of_true ⟨trivial, trivial⟩ trivial
  | txt => exact iff_of_true ⟨trivial, trivial⟩ trivial
  | spf => exact iff_of_true ⟨trivial, trivial⟩ trivial

/-- There is nothing to complete in the data of a mail server. -/
lemma completed_of_mx (h : RData.type d = typeMX) : Completed origin s d := by
  cases d with
  | srv p w q target => exact absurd h (by simp only [RData.type]; decide)
  | cname target => exact absurd h (by simp only [RData.type]; decide)
  | _ => trivial

/-- A list of records, entry by entry. -/
lemma forall₂_ready_iff {entries : List Entry} {read : List Record}
    (each : List.Forall₂ (fun e r => readRecord origin label dk t e = .ok (some r)) entries read) :
    ((∀ r ∈ read, WireReady r.rr.data) ∧
        List.Forall₂ (fun e r => ∀ s, written t e = .ok s → Completed origin s r.rr.data) entries read) ↔
      ∀ e ∈ entries, ∀ s, written t e = .ok s → Wireable origin t s := by
  induction each with
  | nil => simp
  | @cons e r entries read ok _ ih =>
    obtain ⟨s, hs, made⟩ := readRecord_made ok
    have first : (∀ s, written t e = .ok s → Completed origin s r.rr.data) ↔
        Completed origin s r.rr.data := by
      simp [hs]
    have last : (∀ s, written t e = .ok s → Wireable origin t s) ↔ Wireable origin t s := by
      simp [hs]
    rw [List.forall₂_cons, List.forall_mem_cons, List.forall_mem_cons, first, last, ← ih, ← made.ready_iff]
    constructor
    · rintro ⟨⟨ready, rest⟩, completed, rest'⟩
      exact ⟨⟨ready, completed⟩, rest, rest'⟩
    · rintro ⟨⟨ready, completed⟩, rest, rest'⟩
      exact ⟨⟨ready, rest⟩, completed, rest'⟩

end

section
variable {ext : Externals} {geo : Option Provider} {name fileName k : String} {mtime : Int} {doc : Json}
variable {z : Zone} {l : Label} {t : RRType} {rs : List Record}

/-- The records of a zone, and the entries of the file they come from. -/
lemma readZoneFile_list (h : readZoneFile ext geo name fileName mtime (.ok doc) = .ok z)
    (hl : z.labels.lookup k = some l) (hrec : l.recordsOf t = some rs) (ht : t ≠ typeSOA) :
    ∃ dk fields entries read, (dataOf doc).lookup dk = some (.obj fields) ∧
      Lists (dataOf doc) k t dk entries ∧
      List.Forall₂ (fun e r => readRecord name k dk t e = .ok (some r)) entries read ∧
      (rs.map (fun r => r.rr.data)).Perm (read.map (fun r => r.rr.data)) ∧
      ∀ r ∈ rs, r.rr.hdr.ttl = defaultTtl z.options.ttl (ttlOf (Json.fields fields)) t := by
  obtain ⟨raw, z0, empty, origin, setup, located⟩ := readZoneFile_setup h
  -- the records before their places are looked up
  obtain ⟨l0, rs0, hl0, hrec0, options, same⟩ : ∃ l0 rs0, z0.labels.lookup k = some l0 ∧
      l0.recordsOf t = some rs0 ∧ z.options = z0.options ∧ rs.map Record.rr = rs0.map Record.rr := by
    rcases located with rfl | ⟨g, rfl⟩
    · exact ⟨l, rs, hl, hrec, rfl, rfl⟩
    · obtain ⟨l0, hl0, rfl⟩ := exists_of_lookup_setLocations hl
      obtain ⟨rs0, hrec0, e⟩ := of_recordsOf_locate hrec
      refine ⟨l0, rs0, hl0, hrec0, rfl, ?_⟩
      have rrs := congrArg (List.map Record.rr) e
      rw [List.map_map, List.map_map] at rrs
      exact rrs
  have origin' : z0.origin = name := (setupZoneData_label empty setup hl0).1.1.trans origin
  obtain ⟨dk, entries, read, lists, each, perm, _, _, ttls, ttl⟩ :=
    setupZoneData_records empty setup hl0 ht hrec0
  rw [origin'] at each
  obtain ⟨_, fields, _, _, hdv, _⟩ := id lists
  refine ⟨dk, fields, entries, read, hdv, lists, each, ?_, ?_⟩
  · have datas : rs.map (fun r => r.rr.data) = rs0.map (fun r => r.rr.data) := by
      have mapped := congrArg (List.map RR.data) same
      rw [List.map_map, List.map_map] at mapped
      exact mapped
    rw [datas]
    have settles := perm.map (fun r => r.rr.data)
    rw [List.map_map] at settles
    exact settles
  · intro r hr
    have mem : r.rr ∈ rs0.map Record.rr := same ▸ List.mem_map_of_mem hr
    obtain ⟨r0, hr0, e⟩ := List.mem_map.mp mem
    rw [← e, options, ← ttl fields hdv]
    exact ttls r0 hr0

/-- The records of a type in a zone file can be packed, and its relative targets are completed, exactly if
    every entry of its list has a text that the loader handles right. -/
theorem wire_ready_iff (h : readZoneFile ext geo name fileName mtime (.ok doc) = .ok z)
    (hl : z.labels.lookup k = some l) (hrec : l.recordsOf t = some rs) (ht : t ≠ typeSOA) :
    ∃ dk entries read, Lists (dataOf doc) k t dk entries ∧
      List.Forall₂ (fun e r => readRecord name k dk t e = .ok (some r)) entries read ∧
      (rs.map (fun r => r.rr.data)).Perm (read.map (fun r => r.rr.data)) ∧
      (((∀ r ∈ rs, WireReady r.rr.data) ∧
          List.Forall₂ (fun e r => ∀ s, written t e = .ok s → Completed name s r.rr.data) entries read) ↔
        ∀ e ∈ entries, ∀ s, written t e = .ok s → Wireable name t s) := by
  obtain ⟨dk, _, entries, read, _, lists, each, perm, _⟩ := readZoneFile_list h hl hrec ht
  refine ⟨dk, entries, read, lists, each, perm, ?_⟩
  have ready : (∀ r ∈ rs, WireReady r.rr.data) ↔ ∀ r ∈ read, WireReady r.rr.data := by
    have datas : ∀ rs : List Record, (∀ r ∈ rs, WireReady r.rr.data) ↔
        ∀ d ∈ rs.map (fun r => r.rr.data), WireReady d := fun rs => List.forall_mem_map.symm
    rw [datas rs, datas read]
    exact ⟨fun all d hd => all d (perm.mem_iff.mpr hd), fun all d hd => all d (perm.mem_iff.mp hd)⟩
  rw [ready]
  exact forall₂_ready_iff each

end

/-- The file of a zone with a service whose target is relative, and a mail server. -/
def smallService : Json :=
  .obj [("data", .obj [("_sip._udp", .obj [("srv", .arr [.obj [("target", .str "sip")]])]),
    ("", .obj [("mx", .arr [.obj [("mx", .str "mail.example.com")]])])])]

/-- The mail server of that zone can be packed, so that its entry is one that is handled right. -/
theorem mail_server_ready : ∃ z l rs,
    readZoneFile smallExternals none "example.com" "example.com.json" 0 (.ok smallService) = .ok z ∧
      z.labels.lookup "" = some l ∧ l.recordsOf typeMX = some rs ∧
      ∃ dk entries, Lists (dataOf smallService) "" typeMX dk entries ∧
        ∀ e ∈ entries, ∀ s, written typeMX e = .ok s → Wireable "example.com" typeMX s := by
  obtain ⟨z, l, rs, hz, hl, hrec, data⟩ : ∃ z l rs,
      readZoneFile smallExternals none "example.com" "example.com.json" 0 (.ok smallService) = .ok z ∧
      z.labels.lookup "" = some l ∧ l.recordsOf typeMX = some rs ∧
      rs.map (fun r => r.rr.data) = [.mx 0 "mail.example.com."] := ⟨_, _, _, rfl, rfl, rfl, rfl⟩
  obtain ⟨dk, entries, read, lists, each, _, iff⟩ := wire_ready_iff hz hl hrec (by decide)
  refine ⟨z, l, rs, hz, hl, hrec, dk, entries, lists, iff.mp ⟨?_, ?_⟩⟩
  · intro r hr
    have mem : r.rr.data ∈ rs.map (fun r => r.rr.data) := List.mem_map_of_mem hr
    rw [data] at mem
    rw [List.mem_singleton.mp mem]
    show isFqdn "mail.example.com." = true
    decide +kernel
  · exact each.imp (fun e r ok s _ => completed_of_mx (readRecord_rr ok).2)

/-- The target of the service gets the origin, but no dot. -/
theorem service_not_ready : ∃ z l r,
    readZoneFile smallExternals none "example.com" "example.com.json" 0 (.ok smallService) = .ok z ∧
      z.labels.lookup "_sip._udp" = some l ∧ l.recordsOf typeSRV = some [r] ∧
      r.rr.data = .srv 0 0 0 "sip.example.com" ∧ ¬ WireReady r.rr.data := by
  obtain ⟨z, l, r, hz, hl, hrec, data⟩ : ∃ z l r,
      readZoneFile smallExternals none "example.com" "example.com.json" 0 (.ok smallService) = .ok z ∧
      z.labels.lookup "_sip._udp" = some l ∧ l.recordsOf typeSRV = some [r] ∧
      r.rr.data = .srv 0 0 0 "sip.example.com" := ⟨_, _, _, rfl, rfl, rfl, rfl⟩
  refine ⟨z, l, r, hz, hl, hrec, data, ?_⟩
  rw [data]
  show ¬ isFqdn "sip.example.com" = true
  decide +kernel

end GeoDNS.Zones
