import GeoDNS.Zones.Reader
import Mathlib.Algebra.BigOperators.Group.List.Basic
import Mathlib.Data.List.Sort

/-!
# What the loader guarantees

Invariants of every zone that `setupZoneData` returns: each record is filed under its own type
(`Filed.types`), the total weight stored for a type is the sum of the weights of its records
(`Filed.weights`), and the label of the zone itself holds the one `SOA` record (`Loaded.soa`).

They are proved along the loader: for one record (`readRecord_type`), for the records of one type
(`readType_filed`), for the fields of a label by induction over them (`readFields_filed`: a JSON object
has no field twice, so a type is filled at most once), for a label in the second pass
(`finishLabel_filed`), and for the zone by induction over its labels (`setupZoneData_loaded`).
-/

namespace GeoDNS.Zones
open GeoDNS.Lib GeoDNS.Dns GeoDNS.Targeting

/-- The record type of a Go record type. -/
def RData.type : RData → RRType
  | .a _ => typeA
  | .aaaa _ => typeAAAA
  | .ptr _ => typePTR
  | .mx _ _ => typeMX
  | .srv _ _ _ _ => typeSRV
  | .cname _ => typeCNAME
  | .mf _ => typeMF
  | .ns _ => typeNS
  | .txt _ => typeTXT
  | .spf _ => typeSPF
  | .soa .. => typeSOA
  | .opt _ => typeOPT

/-- The name of a mail server is not empty. -/
def RData.Named : RData → Prop
  | .mx _ mx => mx ≠ ""
  | _ => True

/-- A record of type `t`, by its header and by its Go type. -/
structure OfType (t : RRType) (rr : RR) : Prop where
  hdr : rr.hdr.rrtype = t
  data : RData.type rr.data = t
  named : RData.Named rr.data

/-- Only mail servers can be without a name. -/
lemma RData.named_of_type {d : RData} (h : RData.type d ≠ typeMX) : RData.Named d := by
  cases d with
  | mx preference mx => exact (h rfl).elim
  | _ => trivial

/-- Data of the type of aliases is an alias. -/
lemma RData.type_eq_mf {d : RData} (h : RData.type d = typeMF) : ∃ mf, d = .mf mf := by
  cases d with
  | mf mf => exact ⟨mf, rfl⟩
  | _ => exact absurd h (by simp only [RData.type]; decide)

/-! ## One record -/

section
variable {origin label dk test : String} {t : RRType} {h : Header} {e : Entry} {r : Record}

/-- An address or pointer that is read has the header and the type it is filed under. -/
lemma readAddress_rr (ok : readAddress t h dk test e = .ok r) :
    r.rr.hdr = h ∧ (t = typeA ∨ t = typeAAAA ∨ t = typePTR → RData.type r.rr.data = t) := by
  unfold readAddress at ok
  obtain ⟨⟨ip, weight, test'⟩, _, ok⟩ := Res.bind_eq_ok.mp ok
  dsimp only at ok
  split_ifs at ok with ptr a
  · cases ok
    exact ⟨rfl, fun _ => ptr.symm⟩
  · obtain ⟨x, _, ok⟩ := Res.bind_eq_ok.mp ok
    cases ok
    exact ⟨rfl, fun _ => a.symm⟩
  · obtain ⟨x, _, ok⟩ := Res.bind_eq_ok.mp ok
    cases ok
    exact ⟨rfl, fun ht => ((ht.resolve_left a).resolve_right ptr).symm⟩

/-- The fields from which a record of type `MX` is read. -/
lemma readMX_fields (ok : readMX h test e = .ok r) :
    ∃ fields mx pref, e.asObj = .ok fields ∧ (Json.getKey fields "mx").asStr = .ok mx ∧
      optionalInt fields "preference" = .ok pref ∧
      r.rr = ⟨h, .mx (UInt16.ofInt pref) (if endsWith mx "." then mx else mx ++ ".")⟩ := by
  obtain ⟨fields, hfields, ok⟩ := Res.bind_eq_ok.mp ok
  obtain ⟨mx, hmx, ok⟩ := Res.bind_eq_ok.mp ok
  obtain ⟨weight, _, ok⟩ := Res.bind_eq_ok.mp ok
  obtain ⟨pref, hpref, ok⟩ := Res.bind_eq_ok.mp ok
  cases ok
  exact ⟨fields, mx, pref, hfields, hmx, hpref, rfl⟩

/-- The fields from which a record of type `SRV` is read. -/
lemma readSRV_fields (ok : readSRV origin h test e = .ok r) :
    ∃ fields target weight port priority, e.asObj = .ok fields ∧
      (Json.getKey fields "target").asStr = .ok target ∧ optionalInt fields "srv_weight" = .ok weight ∧
      optionalInt fields "port" = .ok port ∧ optionalInt fields "priority" = .ok priority ∧
      r.rr = ⟨h, .srv (UInt16.ofInt priority) (UInt16.ofInt weight) (UInt16.ofInt port)
        (if isFqdn target then target else target ++ "." ++ origin)⟩ := by
  obtain ⟨fields, hfields, ok⟩ := Res.bind_eq_ok.mp ok
  obtain ⟨target, htarget, ok⟩ := Res.bind_eq_ok.mp ok
  obtain ⟨weight, hweight, ok⟩ := Res.bind_eq_ok.mp ok
  obtain ⟨port, hport, ok⟩ := Res.bind_eq_ok.mp ok
  obtain ⟨priority, hpriority, ok⟩ := Res.bind_eq_ok.mp ok
  cases ok
  exact ⟨fields, target, weight, port, priority, hfields, htarget, hweight, hport, hpriority, rfl⟩

/-- A mail server that is read has the header and the type it is filed under. -/
lemma readMX_rr (ok : readMX h test e = .ok r) : r.rr.hdr = h ∧ RData.type r.rr.data = typeMX := by
  obtain ⟨_, _, _, _, _, _, rr⟩ := readMX_fields ok
  rw [rr]
  exact ⟨rfl, rfl⟩

/-- A service that is read has the header and the type it is filed under. -/
lemma readSRV_rr (ok : readSRV origin h test e = .ok r) :
    r.rr.hdr = h ∧ RData.type r.rr.data = typeSRV := by
  obtain ⟨_, _, _, _, _, _, _, _, _, _, rr⟩ := readSRV_fields ok
  rw [rr]
  exact ⟨rfl, rfl⟩

/-- A canonical name that is read has the header and the type it is filed under. -/
lemma readCNAME_rr (ok : readCNAME origin h test e = .ok r) :
    r.rr.hdr = h ∧ RData.type r.rr.data = typeCNAME := by
  unfold readCNAME at ok
  obtain ⟨⟨target, weight, test'⟩, _, ok⟩ := Res.bind_eq_ok.mp ok
  cases ok
  exact ⟨rfl, rfl⟩

/-- An alias that is read has the header and the type it is filed under. -/
lemma readMF_rr (ok : readMF h test e = .ok r) : r.rr.hdr = h ∧ RData.type r.rr.data = typeMF := by
  cases e with
  | json j =>
    obtain ⟨mf, _, ok⟩ := Res.bind_eq_ok.mp ok
    cases ok
    exact ⟨rfl, rfl⟩
  | pair k v => cases ok

/-- A name server that is read has the header and the type it is filed under. -/
lemma readNS_rr (ok : readNS h test e = .ok r) : r.rr.hdr = h ∧ RData.type r.rr.data = typeNS := by
  unfold readNS at ok
  split at ok
  · cases ok
    exact ⟨rfl, rfl⟩
  · cases ok
    exact ⟨rfl, rfl⟩
  · cases ok

/-- A text that is read has the header and the data that is made of it. -/
lemma readText_rr {key : String} {mk : List String → RData}
    (ok : readText key mk h test e = .ok (some r)) : r.rr.hdr = h ∧ ∃ txt, r.rr.data = mk txt := by
  unfold readText at ok
  obtain ⟨⟨txt, weight⟩, _, ok⟩ := Res.bind_eq_ok.mp ok
  dsimp only at ok
  split at ok
  · cases ok
  · cases ok
    exact ⟨rfl, _, rfl⟩

/-- A mail server has a name. -/
lemma readMX_named (ok : readMX h test e = .ok r) : RData.Named r.rr.data := by
  obtain ⟨fields, mx, pref, _, _, _, rr⟩ := readMX_fields ok
  rw [rr]
  show (if endsWith mx "." then mx else mx ++ ".") ≠ ""
  -- with the dot at its end the name is not empty
  split_ifs with dot
  · rintro rfl
    cases dot
  · intro e
    simpa using congrArg String.toList e

/-- The header of a record that is read, and its Go type. -/
lemma readRecord_rr (ok : readRecord origin label dk t e = .ok (some r)) :
    r.rr.hdr = { name := ownerName origin label, rrtype := t, cls := classINET } ∧
      RData.type r.rr.data = t := by
  unfold readRecord at ok
  dsimp only at ok
  simp only [ite_eq_iff] at ok
  rcases ok with ⟨hA, ok⟩ | ⟨-, ⟨hMX, ok⟩ | ⟨-, ⟨hSRV, ok⟩ | ⟨-, ⟨hCNAME, ok⟩ | ⟨-, ⟨hMF, ok⟩ |
    ⟨-, ⟨hNS, ok⟩ | ⟨-, ⟨hTXT, ok⟩ | ⟨-, ⟨hSPF, ok⟩ | ⟨-, ok⟩⟩⟩⟩⟩⟩⟩⟩
  · have rr := readAddress_rr (Res.map_some_eq_ok.mp ok)
    exact ⟨rr.1, rr.2 hA⟩
  · subst hMX
    exact readMX_rr (Res.map_some_eq_ok.mp ok)
  · subst hSRV
    exact readSRV_rr (Res.map_some_eq_ok.mp ok)
  · subst hCNAME
    exact readCNAME_rr (Res.map_some_eq_ok.mp ok)
  · subst hMF
    exact readMF_rr (Res.map_some_eq_ok.mp ok)
  · subst hNS
    exact readNS_rr (Res.map_some_eq_ok.mp ok)
  · obtain ⟨hr, txt, hd⟩ := readText_rr ok
    exact ⟨hr, by rw [hd, hTXT]; rfl⟩
  · obtain ⟨hr, txt, hd⟩ := readText_rr ok
    exact ⟨hr, by rw [hd, hSPF]; rfl⟩
  · cases ok

/-- A record that is read has the type it is read for. -/
theorem readRecord_type (ok : readRecord origin label dk t e = .ok (some r)) : OfType t r.rr := by
  obtain ⟨hdr, data⟩ := readRecord_rr ok
  refine ⟨by rw [hdr], data, ?_⟩
  by_cases ht : t = typeMX
  · subst ht
    exact readMX_named (Res.map_some_eq_ok.mp ok)
  · exact RData.named_of_type (data ▸ ht)

end

/-! ## The labels as they are read -/

/-- A label whose records have the type they are filed under, with the sum of their weights. -/
structure RawFiled (l : RawLabel) : Prop where
  types : ∀ {t slots r}, l.recordsOf t = some slots → some r ∈ slots → OfType t r.rr
  weights : ∀ {t slots}, l.recordsOf t = some slots → l.weightOf t = slotWeight slots
  blank : ∀ {t}, l.recordsOf t = none → l.weightOf t = 0
  known : ∀ {t slots}, l.recordsOf t = some slots → ∃ k, recordTypes k = some t

/-- The name of a record type in a zone file. -/
def typeName (t : RRType) : String :=
  if t = typeA then "a" else if t = typeAAAA then "aaaa" else if t = typeMF then "alias"
  else if t = typeCNAME then "cname" else if t = typeMX then "mx" else if t = typeNS then "ns"
  else if t = typeTXT then "txt" else if t = typeSPF then "spf" else if t = typeSRV then "srv"
  else "ptr"

/-- No two names of a zone file stand for the same record type. -/
lemma typeName_of_recordTypes {k : String} {t : RRType} (h : recordTypes k = some t) :
    k = typeName t := by
  unfold recordTypes at h
  split at h
  all_goals first
    | (cases h; decide)
    | cases h

/-- The types that a zone file cannot have records of. -/
lemma recordTypes_ne {k : String} {t : RRType} (h : recordTypes k = some t) :
    t ≠ typeSOA ∧ t ≠ typeANY ∧ t ≠ 0 := by
  unfold recordTypes at h
  split at h
  all_goals first
    | (cases h; decide)
    | cases h

/-- A new label has no records. -/
lemma rawFiled_newLabel (options : ZoneOptions) (k : String) : RawFiled (newLabel options k) where
  types := nofun
  weights := nofun
  blank := fun _ => rfl
  known := nofun

/-- Slots that are all filled. -/
lemma eq_map_some {slots : List (Option Record)} (h : ∀ x ∈ slots, x.isSome) :
    slots = (slots.filterMap id).map some := by
  induction slots with
  | nil => rfl
  | cons x slots ih =>
    obtain ⟨r, rfl⟩ := Option.isSome_iff_exists.mp (h x List.mem_cons_self)
    simpa using ih (fun y hy => h y (List.mem_cons_of_mem _ hy))

/-- Sorting keeps the records. -/
lemma sortSlots_perm {ext : Externals} {slots slots' : List (Option Record)}
    (h : sortSlots ext slots = .ok slots') : slots'.Perm slots := by
  unfold sortSlots at h
  split at h
  case isFalse => cases h
  case isTrue hall =>
    cases h
    conv_rhs => rw [eq_map_some (List.all_eq_true.mp hall)]
    exact (ext.sortByWeight_perm _).map some

/-- Slots in another order have the same weight. -/
lemma slotWeight_perm {slots slots' : List (Option Record)} (h : slots'.Perm slots) :
    slotWeight slots' = slotWeight slots :=
  (h.map _).sum_eq

section
variable {ext : Externals} {origin dk : String} {l l' : RawLabel}

/-- Reading the records of a type that has none yet keeps the label in order. -/
lemma readType_filed {t : RRType} {k : String} {rdata : Json} (filed : RawFiled l)
    (hk : recordTypes k = some t) (hn : l.recordsOf t = none)
    (ok : readType ext origin dk t rdata l = .ok l') :
    RawFiled l' ∧ ∀ t', t' ≠ t → l'.recordsOf t' = l.recordsOf t' := by
  unfold readType at ok
  obtain ⟨entries, _, ok⟩ := Res.bind_eq_ok.mp ok
  obtain ⟨read, hread, ok⟩ := Res.bind_eq_ok.mp ok
  obtain ⟨slots, hslots, ok⟩ := Res.bind_eq_ok.mp ok
  cases ok
  -- sorting moves the slots around, and nothing else
  have perm : slots.Perm read := by
    split at hslots
    · exact sortSlots_perm hslots
    · cases hslots
      exact .refl _
  have weight : l.weightOf t + slotWeight read = slotWeight slots := by
    rw [filed.blank hn, slotWeight_perm perm, zero_add]
  have other : ∀ t', t' ≠ t →
      ((l.setRecords t slots).setWeight t (l.weightOf t + slotWeight read)).recordsOf t'
        = l.recordsOf t' := by
    intro t' ne
    rw [LabelOf.recordsOf_setWeight, LabelOf.recordsOf_setRecords, if_neg ne]
  refine ⟨⟨?_, ?_, ?_, ?_⟩, other⟩
  · intro t' slots' r h hr
    by_cases ht : t' = t
    · subst ht
      rw [LabelOf.recordsOf_setWeight, LabelOf.recordsOf_setRecords, if_pos rfl] at h
      cases h
      obtain ⟨e, _, he⟩ := Res.mem_of_mapM hread (perm.mem_iff.mp hr)
      exact readRecord_type he
    · rw [other t' ht] at h
      exact filed.types h hr
  · intro t' slots' h
    by_cases ht : t' = t
    · subst ht
      rw [LabelOf.recordsOf_setWeight, LabelOf.recordsOf_setRecords, if_pos rfl] at h
      cases h
      rw [LabelOf.weightOf_setWeight, if_pos rfl, weight]
    · rw [other t' ht] at h
      rw [LabelOf.weightOf_setWeight, if_neg ht, LabelOf.weightOf_setRecords]
      exact filed.weights h
  · intro t' h
    by_cases ht : t' = t
    · subst ht
      rw [LabelOf.recordsOf_setWeight, LabelOf.recordsOf_setRecords, if_pos rfl] at h
      cases h
    · rw [other t' ht] at h
      rw [LabelOf.weightOf_setWeight, if_neg ht, LabelOf.weightOf_setRecords]
      exact filed.blank h
  · intro t' slots' h
    by_cases ht : t' = t
    · subst ht
      exact ⟨k, hk⟩
    · rw [other t' ht] at h
      exact filed.known h

/-- Fields other than records and weights do not matter for the invariant. -/
lemma RawFiled.congr (filed : RawFiled l) (hr : l'.records = l.records) (hw : l'.weight = l.weight) :
    RawFiled l' := by
  have hr' : ∀ t, l'.recordsOf t = l.recordsOf t := fun t => by rw [LabelOf.recordsOf, hr]; rfl
  have hw' : ∀ t, l'.weightOf t = l.weightOf t := fun t => by rw [LabelOf.weightOf, hw]; rfl
  constructor
  · intro t slots r h
    exact filed.types (hr' t ▸ h)
  · intro t slots h
    rw [hw']
    exact filed.weights (hr' t ▸ h)
  · intro t h
    rw [hw']
    exact filed.blank (hr' t ▸ h)
  · intro t slots h
    exact filed.known (hr' t ▸ h)

/-- A field either is an option of the label, or it fills a record type. -/
lemma readField_cases {st st' : RawLabel × Bool} {rType : String} {rdata : Json}
    (ok : readField ext origin dk st rType rdata = .ok st') :
    (st'.1.records = st.1.records ∧ st'.1.weight = st.1.weight) ∨
      ∃ t, recordTypes rType = some t ∧ readType ext origin dk t rdata st.1 = .ok st'.1 := by
  unfold readField at ok
  dsimp only at ok
  split_ifs at ok
  · obtain ⟨n, _, ok⟩ := Res.bind_eq_ok.mp ok
    cases ok
    exact .inl ⟨rfl, rfl⟩
  · obtain ⟨b, _, ok⟩ := Res.bind_eq_ok.mp ok
    cases ok
    exact .inl ⟨rfl, rfl⟩
  · obtain ⟨n, _, ok⟩ := Res.bind_eq_ok.mp ok
    cases ok
    exact .inl ⟨rfl, rfl⟩
  · obtain ⟨l', hl', ok⟩ := Res.bind_eq_ok.mp ok
    cases ok
    unfold addHealthReference at hl'
    split at hl'
    · obtain ⟨ref, _, hl'⟩ := Res.bind_eq_ok.mp hl'
      cases ref <;> (cases hl'; exact .inl ⟨rfl, rfl⟩)
    · cases hl'
      exact .inl ⟨rfl, rfl⟩
  · cases hk : recordTypes rType with
    | none =>
      simp only [hk] at ok
      cases ok
      exact .inl ⟨rfl, rfl⟩
    | some t =>
      simp only [hk] at ok
      split at ok
      · contradiction
      · cases ok
        exact .inl ⟨rfl, rfl⟩
      · rename_i e _
        cases e
        obtain ⟨l', hl', ok⟩ := Res.bind_eq_ok.mp ok
        cases ok
        exact .inr ⟨t, rfl, hl'⟩

/-- All fields of a label: no type is filled twice. -/
theorem readFields_filed {es : List (Σ _ : String, Json)} (nodup : es.NodupKeys)
    {st st' : RawLabel × Bool} (filed : RawFiled st.1)
    (fresh : ∀ e ∈ es, ∀ t, recordTypes e.1 = some t → st.1.recordsOf t = none)
    (ok : es.foldlM (fun st e => readField ext origin dk st e.1 e.2) st = .ok st') :
    RawFiled st'.1 := by
  induction es generalizing st with
  | nil =>
    cases ok
    exact filed
  | cons e es ih =>
    obtain ⟨hnot, nodup⟩ := List.nodupKeys_cons.mp nodup
    rw [List.foldlM_cons] at ok
    obtain ⟨st1, h1, ok⟩ := Res.bind_eq_ok.mp ok
    rcases readField_cases h1 with ⟨hr, hw⟩ | ⟨t, hk, hread⟩
    · refine ih nodup (filed.congr hr hw) ?_ ok
      intro e' he' t ht
      have old := fresh e' (List.mem_cons_of_mem _ he') t ht
      rwa [LabelOf.recordsOf, hr]
    · obtain ⟨filed1, other⟩ := readType_filed filed hk (fresh e (by simp) t hk) hread
      refine ih nodup filed1 ?_ ok
      intro e' he' t' ht'
      have ne : t' ≠ t := by
        rintro rfl
        have same : e'.1 = e.1 :=
          (typeName_of_recordTypes ht').trans (typeName_of_recordTypes hk).symm
        exact hnot (same ▸ List.mem_keys_of_mem he')
      rw [other t' ne]
      exact fresh e' (List.mem_cons_of_mem _ he') t' ht'

end

/-- A zone being read whose labels are in order. -/
def RawZoneFiled (z : RawZone) : Prop :=
  ∀ ⦃k l⦄, z.labels.lookup k = some l → RawFiled l

/-- Reading one label keeps all labels filed. -/
lemma readLabel_filed {ext : Externals} {z z' : RawZone} {dk : String} {dv : Json}
    (filed : RawZoneFiled z) (ok : readLabel ext z dk dv = .ok z') : RawZoneFiled z' := by
  obtain ⟨fields, _, ok⟩ := Res.bind_eq_ok.mp ok
  obtain ⟨⟨l, hasClosest⟩, hfold, ok⟩ := Res.bind_eq_ok.mp ok
  cases ok
  intro k l' hl'
  rw [GoMap.lookup_insert_eq_ite] at hl'
  split at hl'
  · cases hl'
    exact readFields_filed fields.nodupKeys (rawFiled_newLabel z.options dk) (fun _ _ _ _ => rfl) hfold
  · exact filed hl'

/-- Reading all labels of the data object keeps them filed. -/
lemma readLabels_filed {ext : Externals} {data : GoMap String Json} {z z' : RawZone}
    (filed : RawZoneFiled z) (ok : readLabels ext data z = .ok z') : RawZoneFiled z' := by
  unfold readLabels at ok
  generalize data.entries = es at ok
  induction es generalizing z with
  | nil =>
    cases ok
    exact filed
  | cons e es ih =>
    rw [List.foldlM_cons] at ok
    obtain ⟨z1, h1, ok⟩ := Res.bind_eq_ok.mp ok
    exact ih (readLabel_filed filed h1) ok

/-! ## The labels when the loader is through -/

/-- A label whose records have the type they are filed under, with the sum of their weights. The
    `SOA` record comes from the zone file parser, so its type is not known from here. -/
structure Filed (l : Label) : Prop where
  known : ∀ {t rs}, l.recordsOf t = some rs → t ≠ typeSOA → ∃ k, recordTypes k = some t
  types : ∀ {t rs r}, l.recordsOf t = some rs → r ∈ rs → t ≠ typeSOA → OfType t r.rr
  weights : ∀ {t rs}, l.recordsOf t = some rs → l.weightOf t = (rs.map Record.weight).sum
  blank : ∀ {t}, l.recordsOf t = none → l.weightOf t = 0

/-- No record is filed under type `ANY`, nor under the type 0 of a label that stands for itself. -/
lemma Filed.absent {l : Label} (filed : Filed l) {t : RRType} (ht : t = typeANY ∨ t = 0) :
    l.recordsOf t = none := by
  have ne : t ≠ typeSOA := by rcases ht with rfl | rfl <;> decide
  cases h : l.recordsOf t with
  | none => rfl
  | some rs =>
    obtain ⟨k, hk⟩ := filed.known h ne
    rcases ht with rfl | rfl
    · exact ((recordTypes_ne hk).2.1 rfl).elim
    · exact ((recordTypes_ne hk).2.2 rfl).elim

/-- A new label of a finished zone has no records. -/
lemma filed_newLabel (options : ZoneOptions) (k : String) : Filed (newLabel options k) where
  known := nofun
  types := nofun
  weights := nofun
  blank := fun _ => rfl

section
variable {zoneTtl labelTtl : Int} {b : Bool}

/-- What the second pass changes of a record. -/
lemma finishRecord_eq_ok {slot : Option Record} {r : Record}
    (h : finishRecord zoneTtl labelTtl b slot = .ok r) :
    ∃ r0, slot = some r0 ∧ r.weight = (if b then 1 else r0.weight) ∧ r.rr.data = r0.rr.data ∧
      r.rr.hdr.rrtype = r0.rr.hdr.rrtype := by
  cases slot with
  | none => cases h
  | some r0 =>
    cases h
    exact ⟨r0, rfl, rfl, rfl, rfl⟩

/-- The weights of the finished records of a type. -/
lemma finishRecords_weight {slots : List (Option Record)} {rs : List Record}
    (h : slots.mapM (finishRecord zoneTtl labelTtl b) = .ok rs) :
    (rs.map Record.weight).sum = if b then Int64.ofNat slots.length else slotWeight slots := by
  induction slots generalizing rs with
  | nil =>
    cases h
    cases b <;> rfl
  | cons slot slots ih =>
    obtain ⟨r, rs', hr, hrs, rfl⟩ := Res.mapM_cons_eq_ok.mp h
    obtain ⟨r0, rfl, hw, _⟩ := finishRecord_eq_ok hr
    rw [List.map_cons, List.sum_cons, ih hrs, hw]
    cases b with
    | true =>
      simp only [if_true, List.length_cons]
      rw [Int64.ofNat_add, add_comm]
      rfl
    | false => simp [slotWeight]

end

/-- The second pass keeps a label in order. -/
theorem finishLabel_filed {options : ZoneOptions} {l : RawLabel} {l' : Label} (filed : RawFiled l)
    (ok : finishLabel options l = .ok l') : Filed l' ∧ l'.recordsOf typeSOA = none := by
  unfold finishLabel at ok
  obtain ⟨records, hrec, ok⟩ := Res.bind_eq_ok.mp ok
  cases ok
  have lookup := fun t => GoMap.lookup_traverse hrec t
  refine ⟨⟨?_, ?_, ?_, ?_⟩, ?_⟩
  · intro t rs h _
    obtain ⟨slots, hs, _⟩ := GoMap.exists_of_lookup_traverse hrec h
    exact filed.known hs
  · intro t rs r h hr _
    obtain ⟨slots, hs, hm⟩ := GoMap.exists_of_lookup_traverse hrec h
    obtain ⟨slot, hslot, hfin⟩ := Res.mem_of_mapM hm hr
    obtain ⟨r0, rfl, _, hd, ht⟩ := finishRecord_eq_ok hfin
    obtain ⟨h1, h2, h3⟩ := filed.types hs hslot
    exact ⟨ht.trans h1, by rw [hd, h2], by rw [hd]; exact h3⟩
  · intro t rs h
    obtain ⟨slots, hs, hm⟩ := GoMap.exists_of_lookup_traverse hrec h
    rw [finishRecords_weight hm, LabelOf.weightOf, AList.lookup_union_left]
    · rw [GoMap.lookup_mapVals, hs]
      by_cases hb : setsWeight l t = true
      · have hw : l.weightOf t = 0 := (of_decide_eq_true hb).2
        simp [hb, hw]
      · simp [hb, filed.weights hs]
    · rw [← AList.lookup_isSome, GoMap.lookup_mapVals, hs]
      rfl
  · intro t h
    rcases lookup t with ⟨hn, _⟩ | ⟨slots, rs', hs, hrs, hm⟩
    · rw [LabelOf.weightOf, AList.lookup_union_right]
      · exact filed.blank hn
      · rw [← AList.lookup_eq_none, GoMap.lookup_mapVals, hn]
        rfl
    · rw [LabelOf.recordsOf, hrs] at h
      cases h
  · rcases lookup typeSOA with ⟨_, hn⟩ | ⟨slots, rs', hs, _, _⟩
    · exact hn
    · obtain ⟨k, hk⟩ := filed.known hs
      exact ((recordTypes_ne hk).1 rfl).elim

/-! ## The zone -/

/-- A zone that `setupZoneData` has returned. -/
structure Loaded (ext : Externals) (z : Zone) : Prop where
  filed : ∀ {k l}, z.labels.lookup k = some l → Filed l
  -- the `SOA` record is at the label of the zone itself, and nowhere else
  soa : ∃ l ns r, z.labels.lookup "" = some l ∧ l.recordsOf typeSOA = some [r] ∧
    ext.newRR (soaText z.origin z.options ns) = .ok r.rr
  soa_only : ∀ {k l}, z.labels.lookup k = some l → k ≠ "" → l.recordsOf typeSOA = none

/-- A zone before its `SOA` record is added. -/
def Unsigned (z : Zone) : Prop :=
  ∀ ⦃k l⦄, z.labels.lookup k = some l → Filed l ∧ l.recordsOf typeSOA = none

/-- A zone without an `SOA` record stays so when a label is added. -/
lemma Unsigned.addLabel {z : Zone} (h : Unsigned z) (k : String) : Unsigned (z.addLabel k) := by
  intro k' l hl
  rw [ZoneOf.addLabel, GoMap.lookup_insert_eq_ite] at hl
  split at hl
  · cases hl
    exact ⟨filed_newLabel z.options k, rfl⟩
  · exact h hl

/-- A zone without an `SOA` record stays so when the labels above a label are added. -/
lemma Unsigned.addSubLabels {z : Zone} (h : Unsigned z) (k : String) :
    Unsigned (addSubLabels z k) := by
  unfold Zones.addSubLabels
  split
  case isFalse => exact h
  case isTrue =>
    generalize (split k '.').tails.tail.dropLast = subs
    induction subs generalizing z with
    | nil => exact h
    | cons sub subs ih =>
      rw [List.foldl_cons]
      apply ih
      dsimp only
      split
      · exact h
      · exact h.addLabel _

/-- The second pass makes a zone that has everything but its `SOA` record. -/
lemma finishLabels_unsigned {raw : RawZone} {z : Zone} (filed : RawZoneFiled raw)
    (ok : finishLabels raw = .ok z) : Unsigned z := by
  obtain ⟨labels, hl, ok⟩ := Res.bind_eq_ok.mp ok
  cases ok
  have start : Unsigned { raw with labels := labels } := by
    intro k l h
    obtain ⟨l0, h0, hfin⟩ := GoMap.exists_of_lookup_traverse hl h
    exact finishLabel_filed (filed h0) hfin
  generalize raw.labels.keys = ks
  generalize ({ raw with labels := labels } : Zone) = z at start
  induction ks generalizing z with
  | nil => exact start
  | cons k ks ih => exact ih _ (start.addSubLabels k)

/-- With its `SOA` record the zone is loaded. -/
lemma addSOA_loaded {ext : Externals} {z z' : Zone} (h : Unsigned z) (ok : addSOA ext z = .ok z') :
    Loaded ext z' := by
  unfold addSOA at ok
  obtain ⟨ns, _, ok⟩ := Res.bind_eq_ok.mp ok
  have filed : Filed ((z.labels.lookup "").getD (newLabel z.options "")) := by
    cases hl : z.labels.lookup "" with
    | none => exact filed_newLabel z.options ""
    | some l => exact (h hl).1
  have noSoa : ((z.labels.lookup "").getD (newLabel z.options "")).recordsOf typeSOA = none := by
    cases hl : z.labels.lookup "" with
    | none => rfl
    | some l => exact (h hl).2
  generalize (z.labels.lookup "").getD (newLabel z.options "") = label at ok filed noSoa
  cases hrr : ext.newRR (soaText z.origin z.options ns) with
  | error err =>
    rw [hrr] at ok
    cases ok
  | ok rr =>
    rw [hrr] at ok
    cases ok
    refine ⟨?_, ?_, ?_⟩
    · intro k l hl
      rw [GoMap.lookup_insert_eq_ite] at hl
      split at hl
      case isFalse => exact (h hl).1
      case isTrue =>
        cases hl
        constructor
        · intro t rs hr ne
          rw [LabelOf.recordsOf_setRecords, if_neg ne] at hr
          exact filed.known hr ne
        · intro t rs r hr hmem ne
          rw [LabelOf.recordsOf_setRecords, if_neg ne] at hr
          exact filed.types hr hmem ne
        · intro t rs hr
          rw [LabelOf.weightOf_setRecords]
          rw [LabelOf.recordsOf_setRecords] at hr
          split at hr
          case isTrue ht =>
            cases hr
            subst ht
            simpa using filed.blank noSoa
          case isFalse => exact filed.weights hr
        · intro t hr
          rw [LabelOf.weightOf_setRecords]
          rw [LabelOf.recordsOf_setRecords] at hr
          split at hr
          · cases hr
          · exact filed.blank hr
    · refine ⟨label.setRecords typeSOA [{ rr := rr }], ns, { rr := rr }, AList.lookup_insert _, ?_, hrr⟩
      rw [LabelOf.recordsOf_setRecords, if_pos rfl]
    · intro k l hl ne
      rw [GoMap.lookup_insert_eq_ite, if_neg ne] at hl
      exact (h hl).2

/-- Every zone that `setupZoneData` makes of a new zone is in order. -/
theorem setupZoneData_loaded {ext : Externals} {data : GoMap String Json} {raw : RawZone} {z : Zone}
    (empty : raw.labels = ∅) (ok : setupZoneData ext data raw = .ok z) : Loaded ext z := by
  obtain ⟨raw', h1, ok⟩ := Res.bind_eq_ok.mp ok
  obtain ⟨z', h2, ok⟩ := Res.bind_eq_ok.mp ok
  have filed : RawZoneFiled raw := by
    intro k l hl
    rw [empty] at hl
    cases hl
  exact addSOA_loaded (finishLabels_unsigned (readLabels_filed filed h1) h2) ok

/-- A zone that was accepted. -/
def Accepted (ext : Externals) (z : Zone) : Prop :=
  ∃ data raw, raw.labels = ∅ ∧ setupZoneData ext data raw = .ok z

/-- Such a zone has an `SOA` record. -/
lemma Loaded.soaRR {ext : Externals} {z : Zone} (loaded : Loaded ext z) :
    ∃ ns rr, z.soaRR = .ok rr ∧ ext.newRR (soaText z.origin z.options ns) = .ok rr := by
  obtain ⟨l, ns, r, hl, hr, hrr⟩ := loaded.soa
  refine ⟨ns, r.rr, ?_, hrr⟩
  simp [ZoneOf.soaRR, LabelOf.firstRR, hl, hr]

/-- The parser gives the text of a zone's `SOA` record the type that is written there. -/
def ParsesSOA (ext : Externals) (z : Zone) : Prop :=
  ∀ ns rr, ext.newRR (soaText z.origin z.options ns) = .ok rr → rr.hdr.rrtype = typeSOA

/-- Every record is filed under the type in its header. -/
lemma Loaded.rrtype {ext : Externals} {z : Zone} (loaded : Loaded ext z) (parses : ParsesSOA ext z)
    {k : String} {l : Label} {t : RRType} {rs : List Record} {r : Record}
    (hl : z.labels.lookup k = some l) (hrec : l.recordsOf t = some rs) (hr : r ∈ rs) :
    r.rr.hdr.rrtype = t := by
  by_cases ht : t = typeSOA
  · subst ht
    obtain ⟨l0, ns, r0, hl0, hrec0, hrr⟩ := loaded.soa
    by_cases hk : k = ""
    · subst hk
      rw [hl0] at hl
      cases hl
      rw [hrec0] at hrec
      cases hrec
      cases List.mem_singleton.mp hr
      exact parses ns r.rr hrr
    · rw [loaded.soa_only hl hk] at hrec
      cases hrec
  · exact ((loaded.filed hl).types hrec hr ht).hdr

/-- A zone that was accepted is loaded. -/
lemma Accepted.loaded {ext : Externals} {z : Zone} (h : Accepted ext z) : Loaded ext z := by
  obtain ⟨data, raw, empty, ok⟩ := h
  exact setupZoneData_loaded empty ok

/-! ## Places -/

/-- The records of a label whose places are looked up. -/
lemma recordsOf_locate (g : Provider) (l : Label) (t : RRType) :
    (l.locate g).recordsOf t = if l.closest ∧ (t = typeA ∨ t = typeAAAA) then
      (l.recordsOf t).map (List.map (locate g)) else l.recordsOf t := by
  unfold LabelOf.locate
  by_cases closest : l.closest
  · rw [if_pos closest]
    show (l.records.mapVals _).lookup t = _
    rw [GoMap.lookup_mapVals]
    by_cases ht : t = typeA ∨ t = typeAAAA
    · simp only [closest, ht, and_self, if_true]
      rfl
    · simp [ht, LabelOf.recordsOf]
  · rw [if_neg closest, if_neg (fun h => closest h.1)]

/-- Looking up places changes records of a label, if at all, by `locate`. -/
lemma recordsOf_locate_map (g : Provider) (l : Label) (t : RRType) :
    ∃ f, (f = locate g ∨ f = id) ∧ (l.locate g).recordsOf t = (l.recordsOf t).map (List.map f) := by
  rw [recordsOf_locate]
  split
  · exact ⟨locate g, .inl rfl, rfl⟩
  · exact ⟨id, .inr rfl, by simp⟩

/-- Looking up its place changes no other field of a record. -/
lemma locate_eq (g : Provider) (r : Record) : locate g r = { r with loc := (locate g r).loc } := by
  unfold locate
  dsimp only
  split <;> rfl

/-- What places do not change of a label. -/
lemma locate_rest (g : Provider) (l : Label) :
    (l.locate g).label = l.label ∧ (l.locate g).ttl = l.ttl ∧ (l.locate g).weight = l.weight := by
  unfold LabelOf.locate
  split <;> exact ⟨rfl, rfl, rfl⟩

/-! ## Small zones -/

/-- A stand-in for the library code, for zones small enough to be computed with. -/
def smallExternals : Externals where
  newRR _ := .ok ⟨⟨"example.com.", typeSOA, classINET, 1200⟩,
    .soa "ns." "hostmaster.example.com." 0 5400 5400 1209600 3600⟩
  sortByWeight := List.insertionSort (fun a b => b.weight ≤ a.weight)
  sortByWeight_perm := List.perm_insertionSort _
  sortByWeight_sorted := by
    have total : Std.Total (fun a b : Record => b.weight ≤ a.weight) :=
      ⟨fun a b => Int64.le_total b.weight a.weight⟩
    have trans : IsTrans Record (fun a b => b.weight ≤ a.weight) :=
      ⟨fun _ _ _ h1 h2 => Int64.le_trans h2 h1⟩
    exact List.pairwise_insertionSort _

/-- The zone `example.com` with these labels, the empty zone if they are not accepted. -/
def smallZone (data : List (String × Json)) : Zone :=
  match setupZoneData smallExternals (Json.fields data) (newZone "example.com") with
  | .ok z => z
  | _ => newZone "example.com"

/-- The small zones are accepted. -/
lemma smallZone_accepted {data : List (String × Json)} {z : Zone}
    (ok : setupZoneData smallExternals (Json.fields data) (newZone "example.com") = .ok z) :
    Accepted smallExternals (smallZone data) := by
  refine ⟨Json.fields data, newZone "example.com", rfl, ?_⟩
  rw [smallZone, ok]

end GeoDNS.Zones
