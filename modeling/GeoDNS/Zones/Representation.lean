import GeoDNS.Zones.Entries
import GeoDNS.Zones.SecondPass
import Mathlib.Data.List.Forall2

/-!
# What the other code relies on

`Picker` and `serve` take a zone as it is and check nothing. What they rely on is the representation
invariant of a zone that was read from a file, `Represents`: how the labels are named, that the records of
a label and type are those that the file lists there, and how their weights, their order and their TTLs
fit together. `readZoneFile_represents` says that every zone that `ReadZoneFile` accepts satisfies it, if
the keys of its data object are different names.

The records of one type are followed through both passes: from the list in the file to the slots
(`readSlots_eq_ok`), and from the slots to the records (`finishRecords_settled`). Both together are
`readSlots_settled`.
-/

namespace GeoDNS.Zones
open GeoDNS.Lib GeoDNS.Dns GeoDNS.Targeting

/-- Records in descending order of their weights. -/
def ByWeight (rs : List Record) : Prop :=
  rs.Pairwise (fun a b => b.weight ≤ a.weight)

/-- A record as it is read, with its weight and TTL set. -/
def settled (zoneTtl labelTtl : Int) (setWeight : Bool) (r : Record) : Record :=
  { r with
    weight := if setWeight then 1 else r.weight
    rr := { r.rr with hdr := { r.rr.hdr with ttl := defaultTtl zoneTtl labelTtl r.rr.hdr.rrtype } } }

/-- A record without the place of its address. -/
def unplaced (r : Record) : Record :=
  { r with loc := none }

/-- Do records with these weights, filed under type `t`, get the default weight? -/
def weighsAlike (t : RRType) (read : List Record) : Bool :=
  t ∈ alwaysWeighted ∧ (read.map Record.weight).sum = 0

/-- The data object lists these entries under `dk`, for the label `k` and the type `t`. -/
def Lists (data : GoMap String Json) (k : String) (t : RRType) (dk : String) (entries : List Entry) :
    Prop :=
  toLower dk = k ∧ ∃ fields rType rdata, data.lookup dk = some (.obj fields) ∧
    recordTypes rType = some t ∧ (Json.fields fields).lookup rType = some rdata ∧ rdata ≠ .null ∧
    recordEntries rdata = .ok entries

/-- The TTL that the fields of a label give; a label without one has none of its own. -/
def ttlOf (fields : GoMap String Json) : Int :=
  match (fields.lookup "ttl").map Typeutil.toInt with
  | some (.ok n) => n
  | _ => 0

/-- What `Picker` relies on in a label: its totals, the order of records with weights, and that aliases
    have none. -/
structure Balanced (l : Label) : Prop where
  weights : ∀ {t rs}, l.recordsOf t = some rs → l.weightOf t = (rs.map Record.weight).sum
  sorted : ∀ {t rs}, l.recordsOf t = some rs → 0 < l.weightOf t → ByWeight rs
  aliases : l.weightOf typeMF = 0
  any : l.recordsOf typeANY = none

/-- The representation invariant of a zone that was read from a data object. The totals are sums of Go
    integers, which may wrap around; the bound on the length of a list is below which no sum of ones does
    so, and no slice is that long. -/
structure Represents (data : GoMap String Json) (z : Zone) : Prop where
  names : ∀ {k l}, z.labels.lookup k = some l → toLower k = k ∧ l.label = k
  above : ∀ {k s}, k ∈ z.labels → Behind '.' k s → s ∈ z.labels
  types : ∀ {k l t rs r}, z.labels.lookup k = some l → l.recordsOf t = some rs → r ∈ rs →
    r.rr.hdr.rrtype = t
  -- every list of the data object is there, entry by entry
  listed : ∀ {k t dk entries}, Lists data k t dk entries →
    ∃ l rs read, z.labels.lookup k = some l ∧ l.recordsOf t = some rs ∧
      List.Forall₂ (Describes z.origin k t) entries read ∧
      (rs.map unplaced).Perm
        ((read.map (settled z.options.ttl l.ttl (weighsAlike t read))).map unplaced)
  -- and nothing else is, apart from the `SOA` record
  only_listed : ∀ {k l t rs}, z.labels.lookup k = some l → l.recordsOf t = some rs → t ≠ typeSOA →
    ∃ dk entries, Lists data k t dk entries
  weights : ∀ {k l}, z.labels.lookup k = some l → ∀ t,
    l.weightOf t = (((l.recordsOf t).getD []).map Record.weight).sum
  weighted : ∀ {k l t r rs}, z.labels.lookup k = some l → l.recordsOf t = some (r :: rs) →
    t ∈ alwaysWeighted → (r :: rs).length < 2 ^ 64 → l.weightOf t ≠ 0
  sorted : ∀ {k l t rs}, z.labels.lookup k = some l → l.recordsOf t = some rs → 0 < l.weightOf t →
    ByWeight rs
  ttls : ∀ {k l t rs r}, z.labels.lookup k = some l → l.recordsOf t = some rs → r ∈ rs →
    t ≠ typeSOA → r.rr.hdr.ttl = if 0 < l.ttl then UInt32.ofInt l.ttl
      else if t = typeNS then 86400 else UInt32.ofInt z.options.ttl
  soa : ∃ l r, z.labels.lookup "" = some l ∧ l.recordsOf typeSOA = some [r]

/-! ## The records of one type -/

section
variable {ext : Externals} {origin label dk : String} {t : RRType} {rdata : Json}
variable {slots : List (Option Record)} {rs : List Record} {zoneTtl labelTtl : Int} {b : Bool}

/-- An alias as it is read: its target is a text, and it has neither a weight nor a test. -/
lemma readRecord_alias {e : Entry} {r : Record}
    (h : readRecord origin label dk typeMF e = .ok (some r)) :
    ∃ b, e = .json (.str b) ∧ r.rr.data = .mf b ∧ r.weight = 0 ∧ r.test = "" := by
  have h : some <$> readMF ⟨ownerName origin label, typeMF, classINET, 0⟩ (overrideTest e) e =
      .ok (some r) := h
  have hr := Res.map_some_eq_ok.mp h
  cases e with
  | pair a b => cases hr
  | json j =>
    obtain ⟨mf, hmf, hr⟩ := Res.bind_eq_ok.mp hr
    cases hr
    cases j with
    | str b =>
      cases hmf
      exact ⟨_, rfl, rfl, rfl, rfl⟩
    | _ => cases hmf

/-- An alias has neither a weight nor a test. -/
lemma readAliases_plain {entries : List Entry} {read : List Record}
    (each : List.Forall₂ (fun e r => readRecord origin label dk typeMF e = .ok (some r)) entries read) :
    ∀ r ∈ read, r.weight = 0 ∧ r.test = "" ∧ ∃ b, r.rr.data = .mf b := by
  induction each with
  | nil => simp
  | cons h _ ih =>
    obtain ⟨b, _, data, weight, test⟩ := readRecord_alias h
    exact List.forall_mem_cons.mpr ⟨⟨weight, test, b, data⟩, ih⟩

/-- The slots of a type are its entries, in order of their weights if these have a positive sum. -/
lemma readSlots_eq_ok (ok : readSlots ext origin label dk t rdata = .ok slots) :
    ∃ entries read, recordEntries rdata = .ok entries ∧
      entries.mapM (readRecord origin label dk t) = .ok read ∧ slots.Perm read ∧
      (0 < slotWeight slots → ∃ recs : List Record, slots = recs.map some ∧ ByWeight recs) ∧
      (¬ 0 < slotWeight read → slots = read) := by
  obtain ⟨entries, he, ok⟩ := Res.bind_eq_ok.mp ok
  obtain ⟨read, hr, ok⟩ := Res.bind_eq_ok.mp ok
  refine ⟨entries, read, he, hr, ?_⟩
  split at ok
  · rename_i pos
    refine ⟨sortSlots_perm ok, fun _ => ?_, fun nonpos => (nonpos pos).elim⟩
    unfold sortSlots at ok
    split at ok
    · cases ok
      exact ⟨_, rfl, ext.sortByWeight_sorted _⟩
    · cases ok
  · rename_i nonpos
    cases ok
    exact ⟨.refl _, fun pos => (nonpos pos).elim, fun _ => rfl⟩

/-- The second pass settles a record. -/
lemma finishRecord_settled {slot : Option Record} {r : Record}
    (h : finishRecord zoneTtl labelTtl b slot = .ok r)
    (fresh : ∀ r0, slot = some r0 → r0.rr.hdr.ttl = 0) :
    ∃ r0, slot = some r0 ∧ r = settled zoneTtl labelTtl b r0 := by
  cases slot with
  | none => cases h
  | some r0 =>
    cases h
    refine ⟨r0, rfl, ?_⟩
    rw [settled, if_pos (fresh r0 rfl)]

/-- Records that come from their slots have been settled; none of the slots is empty. -/
lemma finishRecords_settled (h : slots.mapM (finishRecord zoneTtl labelTtl b) = .ok rs)
    (fresh : ∀ r0, some r0 ∈ slots → r0.rr.hdr.ttl = 0) :
    ∃ recs : List Record, slots = recs.map some ∧ rs = recs.map (settled zoneTtl labelTtl b) := by
  induction slots generalizing rs with
  | nil =>
    cases h
    exact ⟨[], rfl, rfl⟩
  | cons slot slots ih =>
    obtain ⟨r, rs', hr, hrs, rfl⟩ := Res.mapM_cons_eq_ok.mp h
    obtain ⟨r0, rfl, rfl⟩ := finishRecord_settled hr (fun r0 e => fresh r0 (by simp [e]))
    obtain ⟨recs, rfl, rfl⟩ := ih hrs (fun r0 h0 => fresh r0 (List.mem_cons_of_mem _ h0))
    exact ⟨r0 :: recs, rfl, rfl⟩

/-- The weight of records that are all there. -/
lemma slotWeight_map_some (recs : List Record) :
    slotWeight (recs.map some) = (recs.map Record.weight).sum := by
  simp [slotWeight, Function.comp_def]

/-- Settling the weights keeps an order that there was, and makes one where all are alike. -/
lemma byWeight_settled {recs : List Record} (sorted : b = false → ByWeight recs) :
    ByWeight (recs.map (settled zoneTtl labelTtl b)) := by
  unfold ByWeight
  rw [List.pairwise_map]
  cases b with
  | false => exact sorted rfl
  | true => exact List.pairwise_of_forall (fun _ _ => Int64.le_refl _)

/-- The records of a type: its entries in some order, with their weights and TTLs set. -/
lemma readSlots_settled (ok : readSlots ext origin label dk t rdata = .ok slots)
    (fin : slots.mapM (finishRecord zoneTtl labelTtl b) = .ok rs)
    (hb : b = decide (t ∈ alwaysWeighted ∧ slotWeight slots = 0)) :
    ∃ entries read, recordEntries rdata = .ok entries ∧
      List.Forall₂ (fun e r => readRecord origin label dk t e = .ok (some r)) entries read ∧
      b = weighsAlike t read ∧ rs.Perm (read.map (settled zoneTtl labelTtl b)) ∧
      (0 < (rs.map Record.weight).sum → ByWeight rs) ∧
      (¬ 0 < (read.map Record.weight).sum → rs = read.map (settled zoneTtl labelTtl b)) ∧
      ∀ r ∈ rs, r.rr.hdr.ttl = defaultTtl zoneTtl labelTtl t := by
  obtain ⟨entries, read, hentries, hread, perm, sorted, unsorted⟩ := readSlots_eq_ok ok
  -- a record as it is read has no TTL, and the type it is read for
  have header : ∀ r0, some r0 ∈ slots → r0.rr.hdr.ttl = 0 ∧ r0.rr.hdr.rrtype = t := by
    intro r0 h0
    obtain ⟨e, _, he⟩ := Res.mem_of_mapM hread (perm.mem_iff.mp h0)
    rw [(readRecord_rr he).1]
    exact ⟨rfl, rfl⟩
  obtain ⟨recs, rfl, rfl⟩ := finishRecords_settled fin (fun r0 h0 => (header r0 h0).1)
  obtain ⟨read, rfl⟩ : ∃ read' : List Record, read = read'.map some := by
    refine ⟨_, eq_map_some ?_⟩
    intro x hx
    obtain ⟨r, _, rfl⟩ := List.mem_map.mp (perm.mem_iff.mpr hx)
    rfl
  have perm : recs.Perm read := List.map_perm_map_iff (Option.some_injective Record) |>.mp perm
  have total : slotWeight (recs.map some) = (read.map Record.weight).sum := by
    rw [slotWeight_map_some]
    exact (perm.map _).sum_eq
  refine ⟨entries, read, hentries, ?_, ?_, perm.map _, ?_, ?_, ?_⟩
  · have each := Res.mapM_eq_ok.mp hread
    rw [List.forall₂_map_right_iff] at each
    exact each
  · rw [hb, weighsAlike, total]
  · intro pos
    apply byWeight_settled
    rintro rfl
    have pos' : 0 < slotWeight (recs.map some) := by
      rw [slotWeight_map_some]
      simpa [settled, Function.comp_def] using pos
    obtain ⟨recs', e, ordered⟩ := sorted pos'
    rwa [List.map_injective_iff.mpr (Option.some_injective Record) e]
  · intro nonpos
    have e := unsorted (by rwa [slotWeight_map_some])
    rw [List.map_injective_iff.mpr (Option.some_injective Record) e]
  · intro r hr
    obtain ⟨r0, h0, rfl⟩ := List.mem_map.mp hr
    show defaultTtl zoneTtl labelTtl r0.rr.hdr.rrtype = _
    rw [(header r0 (List.mem_map_of_mem h0)).2]

end

/-! ## One label -/

section
variable {ext : Externals} {origin dk k : String} {options : ZoneOptions} {dv : Json} {b : Bool}
variable {l0 : RawLabel} {l : Label} {t : RRType} {data : GoMap String Json} {start : RawZone} {z : Zone}

/-- The slots of a label that was read: those of the field of their type. -/
lemma labelOf_slots (ok : labelOf ext origin options dk dv = .ok (l0, b)) :
    ∃ fields, dv = .obj fields ∧ l0.label = toLower dk ∧ ∀ t,
      (l0.recordsOf t = none ∧ ∀ rType rdata, recordTypes rType = some t →
        (Json.fields fields).lookup rType = some rdata → rdata = .null) ∨
      ∃ rType rdata slots, recordTypes rType = some t ∧
        (Json.fields fields).lookup rType = some rdata ∧ rdata ≠ .null ∧
        readSlots ext origin (toLower dk) dk t rdata = .ok slots ∧
        l0.recordsOf t = some slots ∧ l0.weightOf t = slotWeight slots := by
  obtain ⟨fields, hfields, ok⟩ := Res.bind_eq_ok.mp ok
  obtain ⟨changes, hchanges, ok⟩ := Res.bind_eq_ok.mp ok
  cases ok
  cases dv with
  | obj fs =>
    cases hfields
    have belong := fromFields_of_traverse (Json.fields fs).nodupKeys hchanges
    refine ⟨fs, rfl, applyAll_label _ _, fun t => ?_⟩
    have slots := belong.recordsOf (l := newLabel options dk) t
    have weight := belong.weight (l := newLabel options dk) t
    rcases GoMap.dlookup_traverseEntries hchanges (typeName t) with
      ⟨hn, hn'⟩ | ⟨rdata, c, hrdata, hc, hread⟩
    · -- no field of this name
      rw [hn'] at slots
      refine .inl ⟨slots, ?_⟩
      intro rType rdata hk hrdata
      rw [typeName_of_recordTypes hk, AList.lookup, hn] at hrdata
      cases hrdata
    · rw [hc] at slots weight
      cases c with
      | records t' ss =>
        obtain ⟨hk, ne, hslots⟩ := of_readChange_records hread
        by_cases ht : t = t'
        · subst ht
          refine .inr ⟨typeName t, rdata, ss, hk, hrdata, ne, hslots, ?_, ?_⟩
          · rw [slots]
            exact if_pos rfl
          · rw [LabelOf.weightOf, weight]
            exact congrArg (Option.getD · 0) (if_pos rfl)
        · -- the name of a type stands for that type, or for none
          refine .inl ⟨slots.trans (if_neg ht), ?_⟩
          intro rType rdata' hk' _
          rw [typeName_of_recordTypes hk', hk] at hk'
          exact (ht (Option.some.inj hk').symm).elim
      | _ =>
        refine .inl ⟨slots, ?_⟩
        intro rType rdata' hk hrdata'
        rw [typeName_of_recordTypes hk, AList.lookup, hrdata] at hrdata'
        cases hrdata'
        by_contra ne
        rw [typeName_of_recordTypes hk] at hk
        rw [readChange_records hk ne] at hread
        obtain ⟨_, _, e⟩ := Res.map_eq_ok.mp hread
        cases e
  | _ => cases hfields

/-- The TTL of a label that was read: that of its field. -/
lemma labelOf_ttl {fs : List (String × Json)} (ok : labelOf ext origin options dk (.obj fs) = .ok (l0, b)) :
    l0.ttl = ttlOf (Json.fields fs) := by
  obtain ⟨fields, hfields, ok⟩ := Res.bind_eq_ok.mp ok
  obtain ⟨changes, hchanges, ok⟩ := Res.bind_eq_ok.mp ok
  cases ok
  cases hfields
  have belong := fromFields_of_traverse (Json.fields fs).nodupKeys hchanges
  rw [belong.ttl, ttlOf, AList.lookup]
  rcases GoMap.dlookup_traverseEntries hchanges "ttl" with ⟨hn, hn'⟩ | ⟨v, c, hv, hc, hread⟩
  · rw [hn, hn']
    rfl
  · obtain ⟨n, hint, rfl⟩ := Res.map_eq_ok.mp (hread : Change.ttl <$> Typeutil.toInt v = .ok c)
    rw [hv, hc, Option.map_some, hint]
    rfl

/-- The second pass sets the records of a label, and leaves the rest of it alone. -/
lemma finishLabel_eq_ok (ok : finishLabel options l0 = .ok l) :
    l.label = l0.label ∧ l.ttl = l0.ttl ∧ ∀ t, (l0.recordsOf t = none ∧ l.recordsOf t = none) ∨
      ∃ slots rs, l0.recordsOf t = some slots ∧ l.recordsOf t = some rs ∧
        slots.mapM (finishRecord options.ttl l0.ttl (setsWeight l0 t)) = .ok rs := by
  obtain ⟨records, hrec, ok⟩ := Res.bind_eq_ok.mp ok
  cases ok
  exact ⟨rfl, rfl, fun t => GoMap.lookup_traverse hrec t⟩

/-- Where a label of a zone comes from, apart from an `SOA` record in it: it was read, or it was added for
    a name that was not. -/
lemma setupZoneData_label (empty : start.labels = ∅) (ok : setupZoneData ext data start = .ok z)
    (hl : z.labels.lookup k = some l) : (z.origin = start.origin ∧ z.options = start.options) ∧
      toLower k = k ∧ ∃ l1 : Label, l.label = l1.label ∧ l.ttl = l1.ttl ∧
        (∀ t, t ≠ typeSOA → l.recordsOf t = l1.recordsOf t) ∧
        ((∃ dk dv b l0, data.lookup dk = some dv ∧ toLower dk = k ∧
            labelOf ext start.origin start.options dk dv = .ok (l0, b) ∧
            finishLabel start.options l0 = .ok l1) ∨
          (l1 = newLabel start.options k ∧ ¬ ∃ dk ∈ data, toLower dk = k)) := by
  obtain ⟨raw, z1, reads, fin, hsoa⟩ := setupZoneData_eq_ok empty ok
  obtain ⟨_, rr, lookup⟩ := addSOA_lookup hsoa
  have options : raw.options = start.options := by rw [reads.rest]
  have unread : k ∉ raw.labels → ¬ ∃ dk ∈ data, toLower dk = k := by
    rintro hk ⟨dk, hdk, rfl⟩
    exact hk (reads.complete hdk)
  -- a label of the zone before its `SOA` record is added
  have before : ∀ l1, z1.labels.lookup k = some l1 → toLower k = k ∧
      ((∃ dk dv b l0, data.lookup dk = some dv ∧ toLower dk = k ∧
          labelOf ext start.origin start.options dk dv = .ok (l0, b) ∧
          finishLabel start.options l0 = .ok l1) ∨
        (l1 = newLabel start.options k ∧ ¬ ∃ dk ∈ data, toLower dk = k)) := by
    intro l1 h1
    cases h0 : raw.labels.lookup k with
    | some l0 =>
      obtain ⟨l1', h1', hfin⟩ := fin.read h0
      rw [h1] at h1'
      cases h1'
      obtain ⟨dk, dv, b, hdv, hk, hread⟩ := reads.labels h0
      rw [options] at hfin
      exact ⟨hk ▸ toLower_toLower dk, .inl ⟨dk, dv, b, l0, hdv, hk, hread, hfin⟩⟩
    | none =>
      have missing := AList.lookup_eq_none.mp h0
      by_cases above : ∃ k' ∈ raw.labels, Behind '.' k' k
      · rw [fin.added missing above, options] at h1
        cases h1
        obtain ⟨k', hk', behind⟩ := above
        exact ⟨toLower_of_suffix behind.suffix (reads.toLower hk'), .inr ⟨rfl, unread missing⟩⟩
      · rw [fin.absent missing above] at h1
        cases h1
  refine ⟨setupZoneData_options empty ok, ?_⟩
  rw [lookup] at hl
  split at hl
  case isFalse =>
    obtain ⟨lower, origin⟩ := before l hl
    exact ⟨lower, l, rfl, rfl, fun _ _ => rfl, origin⟩
  case isTrue hk =>
    subst hk
    cases hl
    have others : ∀ l1 : Label, ∀ t, t ≠ typeSOA →
        (l1.setRecords typeSOA [{ rr := rr }]).recordsOf t = l1.recordsOf t := by
      intro l1 t ht
      rw [LabelOf.recordsOf_setRecords, if_neg ht]
    refine ⟨rfl, (z1.labels.lookup "").getD (newLabel z1.options ""), rfl, rfl, others _, ?_⟩
    cases h1 : z1.labels.lookup "" with
    | some l1 => exact (before l1 h1).2
    | none =>
      have missing : "" ∉ raw.labels := by
        intro h
        exact AList.lookup_eq_none.mp h1 (fin.mem_iff.mpr (.inl h))
      have options1 : z1.options = start.options := by rw [fin.rest, options]
      rw [Option.getD_none, options1]
      exact .inr ⟨rfl, unread missing⟩

/-- A label is filed under its own name, which is in lower case. -/
lemma setupZoneData_names (empty : start.labels = ∅) (ok : setupZoneData ext data start = .ok z)
    (hl : z.labels.lookup k = some l) : toLower k = k ∧ l.label = k := by
  obtain ⟨_, lower, l1, label, _, _, hl1⟩ := setupZoneData_label empty ok hl
  refine ⟨lower, label.trans ?_⟩
  rcases hl1 with ⟨dk, dv, b, l0, _, rfl, hread, hfin⟩ | ⟨rfl, _⟩
  · obtain ⟨_, _, name, _⟩ := labelOf_slots hread
    rw [(finishLabel_eq_ok hfin).1, name]
  · exact lower

/-- The records of a type come from its list in the data object. -/
lemma setupZoneData_records (empty : start.labels = ∅) (ok : setupZoneData ext data start = .ok z)
    (hl : z.labels.lookup k = some l) (ht : t ≠ typeSOA) {rs : List Record}
    (hrec : l.recordsOf t = some rs) :
    ∃ dk entries read, Lists data k t dk entries ∧
      List.Forall₂ (fun e r => readRecord z.origin k dk t e = .ok (some r)) entries read ∧
      rs.Perm (read.map (settled z.options.ttl l.ttl (weighsAlike t read))) ∧
      (0 < (rs.map Record.weight).sum → ByWeight rs) ∧
      (¬ 0 < (read.map Record.weight).sum →
        rs = read.map (settled z.options.ttl l.ttl (weighsAlike t read))) ∧
      (∀ r ∈ rs, r.rr.hdr.ttl = defaultTtl z.options.ttl l.ttl t) ∧
      ∀ fields, data.lookup dk = some (.obj fields) → l.ttl = ttlOf (Json.fields fields) := by
  obtain ⟨⟨origin, options⟩, _, l1, _, ttl, records, hl1⟩ := setupZoneData_label empty ok hl
  rw [records t ht] at hrec
  rcases hl1 with ⟨dk, dv, b, l0, hdv, rfl, hread, hfin⟩ | ⟨rfl, _⟩
  · obtain ⟨_, ttl1, hslots⟩ := finishLabel_eq_ok hfin
    rcases hslots t with ⟨_, hn⟩ | ⟨slots, rs', hslots, hrec', hmap⟩
    · rw [hn] at hrec
      cases hrec
    · rw [hrec'] at hrec
      cases hrec
      obtain ⟨fields, rfl, _, fields_slots⟩ := labelOf_slots hread
      rcases fields_slots t with ⟨hn, _⟩ | ⟨rType, rdata, slots', hk, hrdata, ne, hss, hs, hw⟩
      · rw [hn] at hslots
        cases hslots
      · rw [hs] at hslots
        cases hslots
        rw [options, origin, ttl, ttl1]
        obtain ⟨entries, read, hentries, each, alike, perm, sorted, unsorted, ttls⟩ :=
          readSlots_settled hss hmap (by rw [setsWeight, hw])
        rw [alike] at perm unsorted
        refine ⟨dk, entries, read, ⟨rfl, fields, rType, rdata, hdv, hk, hrdata, ne, hentries⟩, each,
          perm, sorted, unsorted, ttls, ?_⟩
        intro fields' hdv'
        cases hdv.symm.trans hdv'
        exact labelOf_ttl hread
  · cases hrec

/-- A list of a name and type is the only one. -/
lemma Lists.unique (distinct : DistinctKeys data) {dk dk' : String} {entries entries' : List Entry}
    (h : Lists data k t dk entries) (h' : Lists data k t dk' entries') :
    dk = dk' ∧ entries = entries' := by
  obtain ⟨hk, fields, rType, rdata, hdv, ht, hrdata, _, he⟩ := h
  obtain ⟨hk', fields', rType', rdata', hdv', ht', hrdata', _, he'⟩ := h'
  have mem : dk ∈ data := AList.lookup_isSome.mp (by simp [hdv])
  have mem' : dk' ∈ data := AList.lookup_isSome.mp (by simp [hdv'])
  obtain rfl := distinct dk mem dk' mem' (hk.trans hk'.symm)
  rw [hdv] at hdv'
  cases hdv'
  rw [typeName_of_recordTypes ht, ← typeName_of_recordTypes ht', hrdata'] at hrdata
  cases hrdata
  rw [he'] at he
  cases he
  exact ⟨rfl, rfl⟩

/-- A list of the data object has its records in the zone. -/
lemma Lists.records (empty : start.labels = ∅) (ok : setupZoneData ext data start = .ok z)
    (distinct : DistinctKeys data) {entries : List Entry} (h : Lists data k t dk entries) :
    ∃ l rs, z.labels.lookup k = some l ∧ l.recordsOf t = some rs := by
  obtain ⟨rfl, fields, rType, rdata, hdv, hk, hrdata, ne, _⟩ := h
  have mem : dk ∈ data := AList.lookup_isSome.mp (by simp [hdv])
  have label : toLower dk ∈ z.labels := (mem_setupZoneData empty ok).mpr (.inr ⟨dk, mem, .inl rfl⟩)
  obtain ⟨l, hl⟩ := Option.isSome_iff_exists.mp (AList.lookup_isSome.mpr label)
  obtain ⟨_, _, l1, _, _, records, hl1⟩ := setupZoneData_label empty ok hl
  rcases hl1 with ⟨dk', dv, b, l0, hdv', same, hread, hfin⟩ | ⟨_, unread⟩
  · have mem' : dk' ∈ data := AList.lookup_isSome.mp (by simp [hdv'])
    obtain rfl := distinct dk' mem' dk mem same
    rw [hdv] at hdv'
    cases hdv'
    obtain ⟨fields', e, _, fields_slots⟩ := labelOf_slots hread
    cases e
    rcases fields_slots t with ⟨_, none⟩ | ⟨_, _, slots, _, _, _, _, hs, _⟩
    · exact (ne (none rType rdata hk hrdata)).elim
    · rcases (finishLabel_eq_ok hfin).2.2 t with ⟨hn, _⟩ | ⟨_, rs, _, hrs, _⟩
      · rw [hs] at hn
        cases hn
      · exact ⟨l, rs, hl, (records t (recordTypes_ne hk).1).trans hrs⟩
  · exact (unread ⟨dk, mem, rfl⟩).elim

/-- The loader balances every label. -/
lemma setupZoneData_balanced (empty : start.labels = ∅) (ok : setupZoneData ext data start = .ok z)
    (hl : z.labels.lookup k = some l) : Balanced l where
  weights := ((setupZoneData_loaded empty ok).filed hl).weights
  sorted := by
    intro t rs hrec pos
    rw [((setupZoneData_loaded empty ok).filed hl).weights hrec] at pos
    by_cases ht : t = typeSOA
    · -- one record is in order
      subst ht
      obtain ⟨l', _, r, hl', hrec', _⟩ := (setupZoneData_loaded empty ok).soa
      by_cases hk : k = ""
      · subst hk
        rw [hl] at hl'
        cases hl'
        rw [hrec] at hrec'
        cases hrec'
        exact List.pairwise_singleton _ r
      · rw [(setupZoneData_loaded empty ok).soa_only hl hk] at hrec
        cases hrec
    · obtain ⟨_, _, _, _, _, _, sorted, _⟩ := setupZoneData_records empty ok hl ht hrec
      exact sorted pos
  aliases := by
    have filed := (setupZoneData_loaded empty ok).filed hl
    cases hrec : l.recordsOf typeMF with
    | none => exact filed.blank hrec
    | some rs =>
      obtain ⟨_, _, read, _, each, perm, _⟩ := setupZoneData_records empty ok hl (by decide) hrec
      have plain := readAliases_plain each
      have alike : weighsAlike typeMF read = false := by
        apply decide_eq_false
        rintro ⟨h, _⟩
        revert h
        decide
      rw [alike] at perm
      rw [filed.weights hrec, (perm.map Record.weight).sum_eq, List.map_map]
      apply List.sum_eq_zero
      intro w hw
      obtain ⟨r, hr, rfl⟩ := List.mem_map.mp hw
      exact (plain r hr).1
  any := ((setupZoneData_loaded empty ok).filed hl).absent (.inl rfl)

/-- Without its place a record is the same as before. -/
lemma unplaced_locate (g : Provider) (r : Record) : unplaced (locate g r) = unplaced r := by
  rw [locate_eq]
  rfl

/-- If a function changes places only, records without their places are the same after it. -/
lemma map_unplaced {f : Record → Record} (hf : ∀ r, unplaced (f r) = unplaced r) (rs : List Record) :
    (rs.map f).map unplaced = rs.map unplaced := by
  rw [List.map_map]
  exact List.map_congr_left (fun r _ => hf r)

/-- Looking up places changes a label in no other way. -/
lemma recordsOf_locate_unplaced (g : Provider) (l : Label) (t : RRType) :
    ∃ f : Record → Record, (∀ r, unplaced (f r) = unplaced r) ∧
      (l.locate g).recordsOf t = (l.recordsOf t).map (List.map f) := by
  obtain ⟨f, rfl | rfl, e⟩ := recordsOf_locate_map g l t
  · exact ⟨locate g, unplaced_locate g, e⟩
  · exact ⟨id, fun _ => rfl, e⟩

/-- The records of a label with places are those without, up to their places. -/
lemma of_recordsOf_locate {g : Provider} {rs' : List Record}
    (h : (l.locate g).recordsOf t = some rs') :
    ∃ rs, l.recordsOf t = some rs ∧ rs'.map unplaced = rs.map unplaced := by
  obtain ⟨f, hf, e⟩ := recordsOf_locate_unplaced g l t
  rw [h] at e
  obtain ⟨rs, hrs, rfl⟩ := Option.map_eq_some_iff.mp e.symm
  exact ⟨rs, hrs, map_unplaced hf rs⟩

/-- Places do not change weights. -/
lemma weights_unplaced (rs : List Record) :
    rs.map Record.weight = (rs.map unplaced).map Record.weight := by
  rw [List.map_map]
  rfl

/-- The order of the records is one of their weights. -/
lemma byWeight_unplaced (rs : List Record) :
    ByWeight rs ↔ ((rs.map unplaced).map Record.weight).Pairwise (fun a b => b ≤ a) := by
  rw [← weights_unplaced, List.pairwise_map]
  rfl

/-- Places do not change the sums of weights. -/
lemma weightOf_locate (g : Provider) (l : Label) (t : RRType) :
    (l.locate g).weightOf t = l.weightOf t := by
  rw [LabelOf.weightOf, (locate_rest g l).2.2, LabelOf.weightOf]

/-- A record with its place, and the one without that it comes from. -/
lemma mem_recordsOf_locate {g : Provider} {rs' : List Record} {r' : Record}
    (hrec' : (l.locate g).recordsOf t = some rs') (hr' : r' ∈ rs') :
    ∃ rs r, l.recordsOf t = some rs ∧ r ∈ rs ∧ r'.rr = r.rr := by
  obtain ⟨rs, hrec, same⟩ := of_recordsOf_locate hrec'
  have mem' : unplaced r' ∈ rs.map unplaced := same ▸ List.mem_map_of_mem hr'
  obtain ⟨r, hr, e⟩ := List.mem_map.mp mem'
  exact ⟨rs, r, hrec, hr, (congrArg Record.rr e).symm⟩

/-- A zone still represents its data object when it knows the places of its addresses. -/
lemma Represents.setLocations (repr : Represents data z) (g : Provider) :
    Represents data (z.setLocations g) := by
  have located : ∀ {k l}, z.labels.lookup k = some l →
      (z.setLocations g).labels.lookup k = some (l.locate g) := by
    intro k l hl
    rw [lookup_setLocations, hl]
    rfl
  constructor
  case names =>
    intro k l' hl'
    obtain ⟨l, hl, rfl⟩ := exists_of_lookup_setLocations hl'
    rw [(locate_rest g l).1]
    exact repr.names hl
  case above =>
    intro k s hk behind
    exact (mem_setLocations g z).mpr (repr.above ((mem_setLocations g z).mp hk) behind)
  case types =>
    intro k l' t rs' r' hl' hrec' hr'
    obtain ⟨l, hl, rfl⟩ := exists_of_lookup_setLocations hl'
    obtain ⟨rs, r, hrec, hr, e⟩ := mem_recordsOf_locate hrec' hr'
    rw [e]
    exact repr.types hl hrec hr
  case listed =>
    intro k t dk entries h
    obtain ⟨l, rs, read, hl, hrec, each, perm⟩ := repr.listed h
    obtain ⟨f, hf, e⟩ := recordsOf_locate_unplaced g l t
    rw [hrec] at e
    refine ⟨l.locate g, rs.map f, read, located hl, e, each, ?_⟩
    rw [map_unplaced hf, (locate_rest g l).2.1]
    exact perm
  case only_listed =>
    intro k l' t rs' hl' hrec' ht
    obtain ⟨l, hl, rfl⟩ := exists_of_lookup_setLocations hl'
    obtain ⟨rs, hrec, _⟩ := of_recordsOf_locate hrec'
    exact repr.only_listed hl hrec ht
  case weights =>
    intro k l' hl' t
    obtain ⟨l, hl, rfl⟩ := exists_of_lookup_setLocations hl'
    rw [weightOf_locate, repr.weights hl t]
    obtain ⟨f, hf, e⟩ := recordsOf_locate_unplaced g l t
    rw [e]
    cases l.recordsOf t with
    | none => rfl
    | some rs =>
      rw [Option.map_some, Option.getD_some, Option.getD_some, weights_unplaced (rs.map f),
        map_unplaced hf, ← weights_unplaced]
  case weighted =>
    intro k l' t r' rs' hl' hrec' ht short
    obtain ⟨l, hl, rfl⟩ := exists_of_lookup_setLocations hl'
    obtain ⟨rs, hrec, same⟩ := of_recordsOf_locate hrec'
    have length := congrArg List.length same
    rw [List.length_map, List.length_map] at length
    cases rs with
    | nil => cases length
    | cons r rs =>
      rw [weightOf_locate]
      exact repr.weighted hl hrec ht (length ▸ short)
  case sorted =>
    intro k l' t rs' hl' hrec' pos
    obtain ⟨l, hl, rfl⟩ := exists_of_lookup_setLocations hl'
    obtain ⟨rs, hrec, same⟩ := of_recordsOf_locate hrec'
    rw [weightOf_locate] at pos
    have sorted := repr.sorted hl hrec pos
    rw [byWeight_unplaced, same, ← byWeight_unplaced]
    exact sorted
  case ttls =>
    intro k l' t rs' r' hl' hrec' hr' ht
    obtain ⟨l, hl, rfl⟩ := exists_of_lookup_setLocations hl'
    obtain ⟨rs, r, hrec, hr, e⟩ := mem_recordsOf_locate hrec' hr'
    rw [e, (locate_rest g l).2.1]
    exact repr.ttls hl hrec hr ht
  case soa =>
    obtain ⟨l, r, hl, hrec⟩ := repr.soa
    obtain ⟨f, _, e⟩ := recordsOf_locate_unplaced g l typeSOA
    rw [hrec] at e
    exact ⟨l.locate g, f r, located hl, e⟩

end

end GeoDNS.Zones
