import GeoDNS.Zones.Overwritten

/-!
# Entries without a list around them

The value of a record type is a list of entries. A text that stands there alone is taken for a list of one,
but an object is taken for a map of name servers, whatever the type is: each of its fields becomes an entry
that has the name of the field and nothing else. The decoders of `A`, `AAAA`, `MX` and `SRV` records reject
such an entry, those of `TXT` and `SPF` leave a nil slot for it, and those of `PTR` and `CNAME` make a record
without a target (`readSlots_bare`).

So the one entry of a list may be written without the list if it is a text. If it is an object, this is right
only where nobody looks at the records, or where the record meant is the one without a target
(`bare_entry_iff`).
-/

namespace GeoDNS.Zones
open GeoDNS.Lib GeoDNS.Dns

/-- The second data object has `v'` where the first has `v`, in the field `rType` of the label `dk`. -/
structure Instead (data data' : GoMap String Json) (dk rType : String) (v v' : Json) : Prop where
  keys : data.keys = data'.keys
  others : ∀ k, k ≠ dk → data.lookup k = data'.lookup k
  label : ∃ fs fs', data.lookup dk = some (.obj fs) ∧ data'.lookup dk = some (.obj fs') ∧
    (Json.fields fs).lookup rType = some v ∧ (Json.fields fs').lookup rType = some v' ∧
    ∀ key, key ≠ rType → (Json.fields fs).lookup key = (Json.fields fs').lookup key

/-- A value that may stand in a map of name servers. -/
def IsTextOrNull (v : Json) : Prop :=
  v = .null ∨ ∃ s, v = .str s

/-- The record types, apart from `NS`, whose decoders take an entry of a map of name servers. -/
def bareTypes : List RRType :=
  [typePTR, typeCNAME, typeTXT, typeSPF]

/-- The target of a `CNAME` record. -/
def cnameTarget (origin s : String) : String :=
  fqdn (if isFqdn s then s else s ++ "." ++ origin)

/-- The `CNAME` record that an entry with this field and no other describes is the one without a target. -/
structure TargetlessCname (origin k : String) (v : Json) : Prop where
  text : IsTextOrNull v
  cname : k = "cname" → ∃ s, v = .str s ∧ cnameTarget origin s = cnameTarget origin ""
  weight : k = "weight" → ∃ s, v = .str s ∧ (atoi s = some 0 ∨ atoi s = some 1)
  health : k = "health" → v = .str ""

/-- The record of type `t` that an entry with this field and no other describes is the one without a
    target. -/
def Targetless (origin : String) (t : RRType) (k : String) (v : Json) : Prop :=
  (t = typePTR ∧ k = "ptr" ∧ v = .str "") ∨ (t = typeCNAME ∧ TargetlessCname origin k v)

/-- The entry of type `t` may stand without a list in the label `dk`. -/
def BareAlike (data : GoMap String Json) (dk origin : String) (t : RRType) : Json → Prop
  | .str _ => True
  | .obj o => t ∈ bareTypes ∧ (∀ e ∈ (Json.fields o).entries, IsTextOrNull e.2) ∧
      (lastKey data (toLower dk) ≠ some dk ∨
        ∃ k v, (Json.fields o).entries = [⟨k, v⟩] ∧ Targetless origin t k v)
  | _ => False

/-! ## The entries of an object -/

/-- What is read for an entry of a map of name servers: a record without a target, or none. -/
def bareSlot (origin label : String) (t : RRType) : Option Record :=
  let h : Header := { name := ownerName origin label, rrtype := t, cls := classINET }
  if t = typePTR then some { rr := ⟨h, .ptr ""⟩ }
  else if t = typeCNAME then some { rr := ⟨h, .cname (cnameTarget origin "")⟩ }
  else none

section
variable {ext : Externals} {origin label dk rType : String} {t : RRType} {o : List (String × Json)}
variable {slot : Option Record} {slots : List (Option Record)} {entries : List Entry} {r : Record}

/-- The entries of an object: one for each field, which must be a text or null. -/
lemma recordEntries_obj_eq_ok (h : recordEntries (.obj o) = .ok entries) :
    (∀ e ∈ (Json.fields o).entries, IsTextOrNull e.2) ∧
      entries.length = (Json.fields o).entries.length ∧ ∀ e ∈ entries, ∃ k v, e = .pair k v := by
  refine ⟨?_, (Res.mapM_eq_ok.mp h).length_eq.symm, ?_⟩
  · intro e he
    obtain ⟨e', he'⟩ := Res.mapM_returns_iff.mp ⟨entries, h⟩ e he
    obtain ⟨k, v⟩ := e
    cases v with
    | null => exact .inl rfl
    | str s => exact .inr ⟨s, rfl⟩
    | _ => cases he'
  · intro e he
    obtain ⟨⟨k, v⟩, _, he'⟩ := Res.mem_of_mapM h he
    cases v with
    | null =>
      cases he'
      exact ⟨k, "", rfl⟩
    | str s =>
      cases he'
      exact ⟨k, s, rfl⟩
    | _ => cases he'

/-- An object of texts has entries. -/
lemma recordEntries_obj_returns (texts : ∀ e ∈ (Json.fields o).entries, IsTextOrNull e.2) :
    ∃ entries, recordEntries (.obj o) = .ok entries := by
  refine Res.mapM_returns_iff.mpr ?_
  rintro ⟨k, v⟩ he
  rcases texts _ he with null | ⟨s, text⟩
  · obtain rfl : v = .null := null
    exact ⟨_, rfl⟩
  · obtain rfl : v = .str s := text
    exact ⟨_, rfl⟩

/-- The decoders that take such an entry. -/
lemma readRecord_bare (ht : t ∈ bareTypes) (k v : String) :
    readRecord origin label dk t (.pair k v) = .ok (bareSlot origin label t) := by
  simp only [bareTypes, List.mem_cons, List.not_mem_nil, or_false] at ht
  rcases ht with rfl | rfl | rfl | rfl
  · rfl
  · rfl
  · rfl
  · rfl

/-- Name servers apart, only the types for entries without a target read an entry of an object. -/
lemma mem_bareTypes_of_readRecord (hk : recordTypes rType = some t) (ns : t ≠ typeNS) {k v : String}
    (ok : readRecord origin label dk t (.pair k v) = .ok slot) : t ∈ bareTypes := by
  unfold recordTypes at hk
  split at hk
  all_goals first
    | (cases hk; decide)
    | (cases hk; exact (ns rfl).elim)
    | (cases hk; cases ok)
    | cases hk

/-- An entry of an object weighs nothing. -/
lemma bareSlot_weight (origin label : String) (t : RRType) :
    ((bareSlot origin label t).map Record.weight).getD 0 = 0 := by
  unfold bareSlot
  dsimp only
  split
  · rfl
  · split <;> rfl

/-- An object that stands for a list, where its type allows it. -/
lemma readSlots_bare (ht : t ∈ bareTypes) (texts : ∀ e ∈ (Json.fields o).entries, IsTextOrNull e.2) :
    readSlots ext origin label dk t (.obj o) =
      .ok (List.replicate (Json.fields o).entries.length (bareSlot origin label t)) := by
  obtain ⟨entries, hentries⟩ := recordEntries_obj_returns texts
  obtain ⟨_, length, pairs⟩ := recordEntries_obj_eq_ok hentries
  have reads : entries.mapM (readRecord origin label dk t) =
      .ok (List.replicate entries.length (bareSlot origin label t)) := by
    clear hentries length
    induction entries with
    | nil => rfl
    | cons e entries ih =>
      obtain ⟨k, v, rfl⟩ := pairs _ List.mem_cons_self
      rw [List.mapM_cons, readRecord_bare ht, ih (fun e he => pairs e (List.mem_cons_of_mem _ he))]
      rfl
  have weight : slotWeight (List.replicate entries.length (bareSlot origin label t)) = 0 := by
    rw [slotWeight, List.map_replicate, bareSlot_weight]
    exact List.sum_eq_zero (fun _ => List.eq_of_mem_replicate)
  unfold readSlots
  rw [hentries, Res.ok_bind, reads, Res.ok_bind, weight, ← length]
  rfl

/-- An object that is read in place of a list. -/
lemma of_readSlots_obj (hk : recordTypes rType = some t) (ns : t ≠ typeNS)
    (ok : readSlots ext origin label dk t (.obj o) = .ok slots) :
    (∀ e ∈ (Json.fields o).entries, IsTextOrNull e.2) ∧
      ((Json.fields o).entries ≠ [] → t ∈ bareTypes) := by
  obtain ⟨entries, read, hentries, hread, _⟩ := readSlots_eq_ok ok
  obtain ⟨texts, length, pairs⟩ := recordEntries_obj_eq_ok hentries
  refine ⟨texts, ?_⟩
  intro filled
  cases entries with
  | nil => exact (filled (List.eq_nil_of_length_eq_zero length.symm)).elim
  | cons e entries =>
    obtain ⟨k, v, rfl⟩ := pairs _ List.mem_cons_self
    obtain ⟨slot, _, hslot, _⟩ := Res.mapM_cons_eq_ok.mp hread
    exact mem_bareTypes_of_readRecord hk ns hslot

/-! ## The entry in its list -/

/-- The slot of a list of one entry. -/
lemma of_readSlots_single {e : Json} (ok : readSlots ext origin label dk t (.arr [e]) = .ok slots) :
    ∃ slot, readRecord origin label dk t (.json e) = .ok slot ∧ slots = [slot] := by
  obtain ⟨entries, read, hentries, hread, perm, _⟩ := readSlots_eq_ok ok
  cases hentries
  obtain ⟨slot, read', hslot, hread', rfl⟩ := Res.mapM_cons_eq_ok.mp hread
  cases hread'
  exact ⟨slot, hslot, List.perm_singleton.mp perm⟩

/-- An object that describes a record of one of the other types has a field. -/
lemma filled_of_readRecord (hk : recordTypes rType = some t) (other : t ∉ bareTypes)
    (ok : readRecord origin label dk t (.json (.obj o)) = .ok slot) : (Json.fields o).entries ≠ [] := by
  intro none
  -- without fields it is read like any other such object
  have same : Json.Same (.obj o) (.obj []) := by
    refine .obj (fun k => ?_)
    rw [AList.lookup, none]
    exact .none
  rw [(Entry.Same.json same).readRecord] at ok
  unfold recordTypes at hk
  split at hk
  all_goals first
    | (cases hk; cases ok; done)
    | (cases hk; exact other (by decide))
    | cases hk

/-- The test that an entry names, in either of the two ways. -/
lemma elim_overrideTest (o : List (String × Json)) (f : Json → Res String) :
    ((Json.fields o).lookup "health").elim (.ok (overrideTest (.json (.obj o)))) f =
      ((Json.fields o).lookup "health").elim (.ok "") f := by
  cases h : (Json.fields o).lookup "health" with
  | none => simp [overrideTest, h]
  | some v => rfl

/-- A `CNAME` record that an object describes. -/
lemma readRecord_cname_obj (ok : readRecord origin label dk typeCNAME (.json (.obj o)) = .ok (some r)) :
    ∃ target weight test,
      ((Json.fields o).lookup "cname").elim (.ok "") Typeutil.toString = .ok target ∧
      ((Json.fields o).lookup "weight").elim (.ok 0) Typeutil.toInt = .ok weight ∧
      ((Json.fields o).lookup "health").elim (.ok "") Typeutil.toString = .ok test ∧
      r = { rr := ⟨⟨ownerName origin label, typeCNAME, classINET, 0⟩, .cname (cnameTarget origin target)⟩
            weight := Int64.ofInt weight, test := test } := by
  have ok := Res.map_some_eq_ok.mp ok
  obtain ⟨⟨target, weight, test⟩, hfields, ok⟩ := Res.bind_eq_ok.mp ok
  cases ok
  obtain ⟨_, htarget, hfields⟩ := Res.bind_eq_ok.mp hfields
  obtain ⟨_, hweight, hfields⟩ := Res.bind_eq_ok.mp hfields
  obtain ⟨_, htest, hfields⟩ := Res.bind_eq_ok.mp hfields
  cases hfields
  rw [elim_overrideTest] at htest
  exact ⟨target, weight, test, htarget, hweight, htest, rfl⟩

/-- A `PTR` record that an object describes. -/
lemma readRecord_ptr_obj (ok : readRecord origin label dk typePTR (.json (.obj o)) = .ok (some r)) :
    ∃ s weight test, (Json.fields o).lookup "ptr" = some (.str s) ∧
      ((Json.fields o).lookup "weight").elim (.ok 0) Typeutil.toInt = .ok weight ∧
      ((Json.fields o).lookup "health").elim (.ok "") Typeutil.toString = .ok test ∧
      r = { rr := ⟨⟨ownerName origin label, typePTR, classINET, 0⟩, .ptr s⟩
            weight := Int64.ofInt weight, test := test } := by
  have ok := Res.map_some_eq_ok.mp ok
  obtain ⟨⟨s, weight, test⟩, hfields, ok⟩ := Res.bind_eq_ok.mp ok
  cases ok
  obtain ⟨_, _, hfields⟩ := Res.bind_eq_ok.mp hfields
  obtain ⟨_, hs, hfields⟩ := Res.bind_eq_ok.mp hfields
  obtain ⟨_, hweight, hfields⟩ := Res.bind_eq_ok.mp hfields
  obtain ⟨_, htest, hfields⟩ := Res.bind_eq_ok.mp hfields
  cases hfields
  rw [elim_overrideTest] at htest
  refine ⟨s, weight, test, ?_, hweight, htest, rfl⟩
  rw [if_pos (.inr rfl)] at hs
  have hs : (Json.getKey (Json.fields o) "ptr").asStr = .ok s := hs
  unfold Json.getKey at hs
  cases h : (Json.fields o).lookup "ptr" with
  | none =>
    rw [h] at hs
    cases hs
  | some v =>
    rw [h, Option.getD_some] at hs
    cases v with
    | str s' =>
      cases hs
      rfl
    | _ => cases hs

/-- The two records are finished alike when each is the only one of its type. -/
structure SettlesAs (t : RRType) (r r' : Record) : Prop where
  rr : r.rr = r'.rr
  loc : r.loc = r'.loc
  test : r.test = r'.test
  weight : r.weight = r'.weight ∨ t ∈ alwaysWeighted ∧ r.weight = 1 ∧ r'.weight = 0

/-- The only field of an object describes the `PTR` record without a target. -/
lemma targetless_ptr_iff {k : String} {v : Json} (single : (Json.fields o).entries = [⟨k, v⟩])
    (ok : readRecord origin label dk typePTR (.json (.obj o)) = .ok (some r)) {r' : Record}
    (hr' : bareSlot origin label typePTR = some r') :
    (k = "ptr" ∧ v = .str "") ↔ SettlesAs typePTR r r' := by
  obtain ⟨s, weight, test, hs, hweight, htest, rfl⟩ := readRecord_ptr_obj ok
  cases hr'
  have lookup := GoMap.lookup_of_single single
  -- the field is the one that the record needs
  have here : k = "ptr" ∧ v = .str s := by
    rw [lookup] at hs
    split at hs
    · rename_i name
      exact ⟨name.symm, Option.some.inj hs⟩
    · cases hs
  obtain ⟨rfl, rfl⟩ := here
  rw [lookup, if_neg (by decide)] at hweight htest
  cases hweight
  cases htest
  constructor
  · rintro ⟨_, blank⟩
    cases blank
    exact ⟨rfl, rfl, rfl, .inl rfl⟩
  · intro settles
    have data := congrArg RR.data settles.rr
    exact ⟨rfl, congrArg Json.str (RData.ptr.inj data)⟩

/-- What an optional field gives, where there is one field only: the text of that field if it is the one, and
    the default otherwise. -/
lemma of_elim_single {α : Type} {k key : String} {v : Json} {d a : α} {f : Json → Res α}
    (single : (Json.fields o).entries = [⟨k, v⟩]) (text : IsTextOrNull v) (null : ∀ a, f .null ≠ .ok a)
    (h : ((Json.fields o).lookup key).elim (.ok d) f = .ok a) :
    (k = key ∧ ∃ s, v = .str s ∧ f (.str s) = .ok a) ∨ (k ≠ key ∧ a = d) := by
  rw [GoMap.lookup_of_single single] at h
  split at h
  · rename_i name
    rcases text with rfl | ⟨s, rfl⟩
    · exact (null a h).elim
    · exact .inl ⟨name.symm, s, rfl, h⟩
  · rename_i name
    exact .inr ⟨Ne.symm name, (Res.ok.inj h).symm⟩

/-- The only field of an object describes the `CNAME` record without a target. -/
lemma targetless_cname_iff {k : String} {v : Json} (single : (Json.fields o).entries = [⟨k, v⟩])
    (text : IsTextOrNull v)
    (ok : readRecord origin label dk typeCNAME (.json (.obj o)) = .ok (some r)) {r' : Record}
    (hr' : bareSlot origin label typeCNAME = some r') :
    TargetlessCname origin k v ↔ SettlesAs typeCNAME r r' := by
  obtain ⟨target, weight, test, htarget, hweight, htest, rfl⟩ := readRecord_cname_obj ok
  cases hr'
  have target_of := of_elim_single single text (by simp [Typeutil.toString]) htarget
  have weight_of := of_elim_single single text (by simp [Typeutil.toInt]) hweight
  have test_of := of_elim_single single text (by simp [Typeutil.toString]) htest
  constructor
  · rintro ⟨_, hcname, hnumber, hhealth⟩
    have same : cnameTarget origin target = cnameTarget origin "" := by
      rcases target_of with ⟨name, s, rfl, hs⟩ | ⟨_, rfl⟩
      · obtain ⟨s', e, same⟩ := hcname name
        cases e
        cases hs
        exact same
      · rfl
    have light : weight = 0 ∨ weight = 1 := by
      rcases weight_of with ⟨name, s, rfl, hs⟩ | ⟨_, rfl⟩
      · obtain ⟨s', e, small⟩ := hnumber name
        cases e
        rw [Res.get_eq_ok.mp hs] at small
        exact small.imp Option.some.inj Option.some.inj
      · exact .inl rfl
    have plain : test = "" := by
      rcases test_of with ⟨name, s, rfl, hs⟩ | ⟨_, rfl⟩
      · cases hs
        exact Json.str.inj (hhealth name)
      · rfl
    refine ⟨by rw [same], rfl, plain, light.imp ?_ ?_⟩
    · rintro rfl
      rfl
    · rintro rfl
      exact ⟨by decide, rfl, rfl⟩
  · intro settles
    have data := congrArg RR.data settles.rr
    refine ⟨text, ?_, ?_, ?_⟩
    · intro name
      rcases target_of with ⟨_, s, rfl, hs⟩ | ⟨ne, _⟩
      · cases hs
        exact ⟨target, rfl, RData.cname.inj data⟩
      · exact (ne name).elim
    · intro name
      rcases weight_of with ⟨_, s, rfl, hs⟩ | ⟨ne, _⟩
      · refine ⟨s, rfl, ?_⟩
        obtain ⟨low, high⟩ := Typeutil.toInt_range hs
        have value := toInt_ofInt_of_fits low high
        rw [Res.get_eq_ok.mp hs]
        rcases settles.weight with zero | ⟨_, one, _⟩
        · exact .inl (congrArg some (value.symm.trans (congrArg Int64.toInt zero)))
        · exact .inr (congrArg some (value.symm.trans (congrArg Int64.toInt one)))
      · exact (ne name).elim
    · intro name
      rcases test_of with ⟨_, s, rfl, hs⟩ | ⟨ne, _⟩
      · cases hs
        exact congrArg Json.str settles.test
      · exact (ne name).elim

/-- A single record gets the default weight if it has none. -/
lemma weighsAlike_single (t : RRType) (r : Record) :
    weighsAlike t [r] = decide (t ∈ alwaysWeighted ∧ r.weight = 0) := by
  simp [weighsAlike]

/-- Two records that came to the same, each the only one of its type. -/
lemma settlesAs_of_settled {r' : Record} {zoneTtl labelTtl zoneTtl' labelTtl' : Int}
    (same : settled zoneTtl labelTtl (weighsAlike t [r]) r =
      settled zoneTtl' labelTtl' (weighsAlike t [r']) r')
    (hdr : r.rr.hdr = r'.rr.hdr) (weightless : r'.weight = 0) : SettlesAs t r r' := by
  -- settling keeps everything but the weight and the TTL
  injection same with rr weight loc test
  injection rr with _ data
  refine ⟨?_, loc, test, ?_⟩
  · obtain ⟨⟨hdr1, data1⟩, _⟩ := r
    obtain ⟨⟨hdr2, data2⟩, _⟩ := r'
    cases hdr
    cases data
    rfl
  · rw [weighsAlike_single, weighsAlike_single] at weight
    by_cases ht : t ∈ alwaysWeighted
    · by_cases zero : r.weight = 0
      · exact .inl (zero.trans weightless.symm)
      · simp only [ht, zero, weightless, and_false, and_true, decide_false, decide_true, if_true] at weight
        exact .inr ⟨ht, weight, weightless⟩
    · simp only [ht, false_and, decide_false] at weight
      exact .inl weight

/-- Records that are finished alike. -/
lemma SettlesAs.finishes {r' : Record} {l l' : RawLabel} (settles : SettlesAs t r r') (zoneTtl : Int)
    (ttl : l.ttl = l'.ttl) (hw : l.weightOf t = r.weight) (hw' : l'.weightOf t = r'.weight) :
    [some r].mapM (finishRecord zoneTtl l.ttl (setsWeight l t)) =
        [some r'].mapM (finishRecord zoneTtl l'.ttl (setsWeight l' t)) ∧
      totalOf l t [some r] = totalOf l' t [some r'] := by
  obtain ⟨rr, weight, loc, test⟩ := r
  obtain ⟨rr', weight', loc', test'⟩ := r'
  obtain ⟨hrr, hloc, htest, hweight⟩ := settles
  cases hrr
  cases hloc
  cases htest
  dsimp only at hw hw' hweight
  rw [totalOf, totalOf, setsWeight, setsWeight, hw, hw', ttl]
  rcases hweight with rfl | ⟨ht, rfl, rfl⟩
  · exact ⟨rfl, rfl⟩
  · -- the weight that is set is the one that the other record has
    simp only [ht, true_and]
    exact ⟨rfl, rfl⟩

end

/-! ## Data objects -/

section
variable {ext : Externals} {data data' : GoMap String Json} {start : RawZone} {z : Zone}
variable {dk rType : String} {t : RRType} {v v' e : Json}

/-- The labels of an object with another value can be read if that value can. -/
lemma Instead.reads (instead : Instead data data' dk rType v v') (hk : recordTypes rType = some t)
    (ne : v ≠ .null) (ne' : v' ≠ .null)
    (returns : ∀ slots, readSlots ext start.origin (toLower dk) dk t v = .ok slots →
      ∃ slots', readSlots ext start.origin (toLower dk) dk t v' = .ok slots') :
    ReadsAlso ext start data data' := by
  intro dk' dv dv' r hdv hdv' hr
  by_cases here : dk' = dk
  · subst here
    obtain ⟨fs, fs', hfs, hfs', hv, hv', same⟩ := instead.label
    cases hfs.symm.trans hdv
    cases hfs'.symm.trans hdv'
    have each := labelOf_returns.mp ⟨r, hr⟩
    obtain ⟨⟨l', b⟩, hr'⟩ : ∃ r', labelOf ext start.origin start.options dk' (.obj fs') = .ok r' := by
      refine labelOf_returns.mpr (fun key w hw => ?_)
      by_cases hkey : key = rType
      · subst hkey
        cases hv'.symm.trans hw
        rw [readChange_returns hk ne']
        obtain ⟨slots, hslots⟩ := (readChange_returns hk ne).mp (each key v hv)
        exact returns slots hslots
      · rw [← same key hkey] at hw
        exact each key w hw
    have closest : "closest" ≠ rType := by
      rintro rfl
      cases hk
    rw [labelOf_closest hr hr' (same _ closest)]
    exact ⟨l', hr'⟩
  · rw [instead.others dk' here, hdv'] at hdv
    cases hdv
    exact ⟨r.1, hr⟩

/-- The labels that count come to the same if the one with another value does. -/
lemma Instead.finishes (instead : Instead data data' dk rType v v')
    (label : ∀ fs fs', data.lookup dk = some (.obj fs) → data'.lookup dk = some (.obj fs') →
      lastKey data (toLower dk) = some dk →
      Res.Agree SameLabel (finishedLabel ext start.origin start.options dk (.obj fs))
        (finishedLabel ext start.origin start.options dk (.obj fs'))) :
    FinishesAlso ext start data data' := by
  intro dk' dv dv' hdv hdv' last
  by_cases here : dk' = dk
  · subst here
    obtain ⟨fs, fs', hfs, hfs', _⟩ := instead.label
    cases hfs.symm.trans hdv
    cases hfs'.symm.trans hdv'
    exact label fs fs' hfs hfs' last
  · rw [instead.others dk' here, hdv'] at hdv
    cases hdv
    exact .refl SameLabel.refl _

/-- A text that stands alone is a list of one. -/
lemma Instead.text_agrees {s : String} (instead : Instead data data' dk rType (.arr [.str s]) (.str s))
    (hk : recordTypes rType = some t) {fs fs' : List (String × Json)}
    (hdv : data.lookup dk = some (.obj fs)) (hdv' : data'.lookup dk = some (.obj fs')) :
    Res.Agree SameRead (labelOf ext start.origin start.options dk (.obj fs))
      (labelOf ext start.origin start.options dk (.obj fs')) := by
  obtain ⟨fs1, fs1', hfs, hfs', hv, hv', same⟩ := instead.label
  cases hfs.symm.trans hdv
  cases hfs'.symm.trans hdv'
  apply labelOf_agree_of_fields
  intro key
  by_cases hkey : key = rType
  · subst hkey
    rw [hv, hv']
    refine .some (.of_eq (fun _ => rfl) ?_)
    rw [readChange_records hk (by simp), readChange_records hk (by simp)]
    rfl
  · rw [same key hkey]
    exact rel_refl (fun _ => .refl (fun _ => rfl) _) _

/-- The only field of an object describes the record without a target exactly if its record settles as
    that one. -/
lemma targetless_iff {origin label : String} {o : List (String × Json)} {k : String} {r r' : Record}
    (single : (Json.fields o).entries = [⟨k, v⟩]) (text : IsTextOrNull v) (ht : t ∈ bareTypes)
    (ok : readRecord origin label dk t (.json (.obj o)) = .ok (some r))
    (hr' : bareSlot origin label t = some r') : Targetless origin t k v ↔ SettlesAs t r r' := by
  unfold Targetless
  simp only [bareTypes, List.mem_cons, List.not_mem_nil, or_false] at ht
  rcases ht with rfl | rfl | rfl | rfl
  · have other : typePTR ≠ typeCNAME := by decide
    simpa [other] using targetless_ptr_iff single ok hr'
  · have other : typeCNAME ≠ typePTR := by decide
    simpa [other] using targetless_cname_iff single text ok hr'
  · cases hr'
  · cases hr'

/-- An object in place of its list, in a label that counts: it describes the record without a target. -/
lemma Instead.targetless {o : List (String × Json)} {z' : Zone}
    (instead : Instead data data' dk rType (.arr [.obj o]) (.obj o)) (hk : recordTypes rType = some t)
    (ht : t ∈ bareTypes) (empty : start.labels = ∅) (ok : setupZoneData ext data start = .ok z)
    (ok' : setupZoneData ext data' start = .ok z') (same : SameZone z z')
    (last : lastKey data (toLower dk) = some dk) :
    ∃ k v, (Json.fields o).entries = [⟨k, v⟩] ∧ Targetless start.origin t k v := by
  obtain ⟨fs, fs', hdv, hdv', hv, hv', _⟩ := instead.label
  have last' := lastKey_eq_of_keys instead.keys ▸ last
  obtain ⟨m, l, finished, hl, hm⟩ := setupZoneData_finished empty ok hdv last
  obtain ⟨m', l', finished', hl', hm'⟩ := setupZoneData_finished empty ok' hdv' last'
  obtain ⟨rs, entries, read, hrs, hentries, each, perm⟩ := finishedLabel_records finished hk hv (by simp)
  obtain ⟨rs', entries', read', hrs', hentries', each', perm'⟩ :=
    finishedLabel_records finished' hk hv' (by simp)
  -- the records of both zones
  have labels := same.labels (toLower dk)
  rw [hl, hl'] at labels
  have records : rs = rs' := by
    cases labels with
    | some labels =>
      have notSoa := (recordTypes_ne hk).1
      have equal := labels.records t
      rw [hm t notSoa, hm' t notSoa, hrs, hrs'] at equal
      exact Option.some.inj equal
  subst records
  cases hentries
  cases each with
  | cons hr rest =>
    cases rest
    obtain rfl := List.perm_singleton.mp perm
    obtain ⟨texts, length, pairs⟩ := recordEntries_obj_eq_ok hentries'
    have one : read'.length = 1 := by simpa using perm'.length_eq.symm
    obtain ⟨r', rfl⟩ := List.length_eq_one_iff.mp one
    cases each' with
    | cons hr' rest =>
      cases rest
      obtain ⟨a, b, rfl⟩ := pairs _ List.mem_cons_self
      obtain ⟨⟨k, v⟩, single⟩ := List.length_eq_one_iff.mp length.symm
      have bare := Res.ok.inj ((readRecord_bare ht a b).symm.trans hr')
      have text : IsTextOrNull v := texts ⟨k, v⟩ (by rw [single]; exact List.mem_cons_self)
      have weightless : r'.weight = 0 := by
        have weight := bareSlot_weight start.origin (toLower dk) t
        rwa [bare] at weight
      refine ⟨k, v, single, (targetless_iff single text ht hr bare).mpr ?_⟩
      refine settlesAs_of_settled (List.singleton_inj.mp (List.perm_singleton.mp perm')) ?_ weightless
      exact (readRecord_rr hr).1.trans (readRecord_rr hr').1.symm

/-- An object that describes the record without a target may stand in place of its list. -/
lemma Instead.object_agrees {o : List (String × Json)} {k : String}
    (instead : Instead data data' dk rType (.arr [.obj o]) (.obj o)) (hk : recordTypes rType = some t)
    (ht : t ∈ bareTypes) (empty : start.labels = ∅) (ok : setupZoneData ext data start = .ok z)
    (last : lastKey data (toLower dk) = some dk) (single : (Json.fields o).entries = [⟨k, v⟩])
    (text : IsTextOrNull v) (targetless : Targetless start.origin t k v) {fs fs' : List (String × Json)}
    (hdv : data.lookup dk = some (.obj fs)) (hdv' : data'.lookup dk = some (.obj fs')) :
    Res.Agree SameLabel (finishedLabel ext start.origin start.options dk (.obj fs))
      (finishedLabel ext start.origin start.options dk (.obj fs')) := by
  obtain ⟨fs1, fs1', hfs, hfs', hv, hv', same⟩ := instead.label
  cases hfs.symm.trans hdv
  cases hfs'.symm.trans hdv'
  have single_weight : ∀ r, slotWeight [some r] = r.weight := fun r => by simp [slotWeight]
  -- the entry in its list
  obtain ⟨m, _, finished, _⟩ := setupZoneData_finished empty ok hdv last
  obtain ⟨⟨l, b⟩, hread, _⟩ := Res.bind_eq_ok.mp finished
  obtain ⟨slots, hslots, hs, hw⟩ := labelOf_recordsOf hread hk hv (by simp)
  obtain ⟨slot, hslot, rfl⟩ := of_readSlots_single hslots
  obtain ⟨r, rfl⟩ : ∃ r, slot = some r := by
    obtain ⟨_, entries, read, _, hentries, each, _⟩ := finishedLabel_records finished hk hv (by simp)
    cases hentries
    cases each with
    | cons hr _ => exact ⟨_, Res.ok.inj (hslot.symm.trans hr)⟩
  -- the entry without it
  have texts : ∀ e ∈ (Json.fields o).entries, IsTextOrNull e.2 := by
    rw [single]
    exact List.forall_mem_singleton.mpr text
  obtain ⟨r', bare⟩ : ∃ r', bareSlot start.origin (toLower dk) t = some r' := by
    rcases targetless with ⟨rfl, _⟩ | ⟨rfl, _⟩
    · exact ⟨_, rfl⟩
    · exact ⟨_, rfl⟩
  have reads : ReadsAlso ext start data data' :=
    instead.reads hk (by simp) (by simp) (fun _ _ => ⟨_, readSlots_bare ht texts⟩)
  obtain ⟨l', hread'⟩ := reads hdv hdv' hread
  obtain ⟨slots', hslots', hs', hw'⟩ := labelOf_recordsOf hread' hk hv' (by simp)
  rw [readSlots_bare ht texts, single, bare] at hslots'
  cases hslots'
  have settles := (targetless_iff single text ht hslot bare).mp targetless
  have same := labelOf_sameButRecords hread hread' hk same
  obtain ⟨records, totals⟩ := settles.finishes start.options.ttl same.ttl
    (hw.trans (single_weight r)) (hw'.trans (single_weight r'))
  rw [finishedLabel, finishedLabel, hread, hread']
  exact (same.finishAlike hs hs' records totals).agree

/-- The one entry of a list may stand without it exactly if it is a text, or one of the objects that come
    to the same as a map of name servers. -/
theorem bare_entry_iff (empty : start.labels = ∅) (ok : setupZoneData ext data start = .ok z)
    (hk : recordTypes rType = some t) (ns : t ≠ typeNS) (entry : (∃ s, e = .str s) ∨ ∃ o, e = .obj o)
    (instead : Instead data data' dk rType (.arr [e]) e) :
    (∃ z', setupZoneData ext data' start = .ok z' ∧ SameZone z z' ∧ z.logging = z'.logging) ↔
      BareAlike data dk start.origin t e := by
  rcases entry with ⟨s, rfl⟩ | ⟨o, rfl⟩
  · refine iff_of_true ?_ trivial
    refine setupZoneData_same empty instead.keys ?_ ?_ ok
    · exact instead.reads hk (by simp) (by simp) (fun slots hslots => ⟨slots, hslots⟩)
    · refine instead.finishes (fun fs fs' hdv hdv' _ => ?_)
      exact (instead.text_agrees hk hdv hdv').bind (fun _ _ same => finishLabel_agree same.1 _)
  · constructor
    · rintro ⟨z', ok', same, _⟩
      obtain ⟨fs, fs', hdv, hdv', hv, hv', _⟩ := instead.label
      obtain ⟨slots, hslots⟩ := setupZoneData_readSlots ok hdv hk hv (by simp)
      obtain ⟨slots', hslots'⟩ := setupZoneData_readSlots ok' hdv' hk hv' (by simp)
      obtain ⟨slot, hslot, _⟩ := of_readSlots_single hslots
      obtain ⟨texts, filled⟩ := of_readSlots_obj hk ns hslots'
      have ht : t ∈ bareTypes := by
        by_contra other
        exact other (filled (filled_of_readRecord hk other hslot))
      refine ⟨ht, texts, ?_⟩
      by_cases last : lastKey data (toLower dk) = some dk
      · exact .inr (instead.targetless hk ht empty ok ok' same last)
      · exact .inl last
    · rintro ⟨ht, texts, replaced⟩
      refine setupZoneData_same empty instead.keys ?_ ?_ ok
      · exact instead.reads hk (by simp) (by simp) (fun _ _ => ⟨_, readSlots_bare ht texts⟩)
      · refine instead.finishes (fun fs fs' hdv hdv' last => ?_)
        obtain ⟨k, v, single, targetless⟩ := replaced.resolve_left (not_not.mpr last)
        have text : IsTextOrNull v := texts ⟨k, v⟩ (by rw [single]; exact List.mem_cons_self)
        exact instead.object_agrees hk ht empty ok last single text targetless hdv hdv'

end

/-- A data object with one field at the name of the zone. -/
def smallApex (rType : String) (v : Json) : GoMap String Json :=
  Json.fields [("", .obj [(rType, v)])]

/-- Two values of one field at the apex. -/
lemma smallApex_instead (rType : String) (v v' : Json) :
    Instead (smallApex rType v) (smallApex rType v') "" rType v v' := by
  have single : ∀ (k key : String) (v : Json),
      (Json.fields [(k, v)]).lookup key = if key = k then some v else none :=
    fun k key v => GoMap.lookup_of_single rfl key
  refine ⟨rfl, ?_, [(rType, v)], [(rType, v')], rfl, rfl, ?_, ?_, ?_⟩
  · intro k ne
    rw [smallApex, smallApex, single, single, if_neg ne, if_neg ne]
  · rw [single, if_pos rfl]
  · rw [single, if_pos rfl]
  · intro key ne
    rw [single, single, if_neg ne, if_neg ne]

/-- The text of the documentation's first example. -/
theorem bare_text_accepted : ∃ z z',
    setupZoneData smallExternals (smallApex "txt" (.arr [.str "Example zone"])) (newZone "example.com") =
        .ok z ∧
      setupZoneData smallExternals (smallApex "txt" (.str "Example zone")) (newZone "example.com") = .ok z' ∧
      SameZone z z' := by
  obtain ⟨z, hz⟩ : ∃ z, setupZoneData smallExternals (smallApex "txt" (.arr [.str "Example zone"]))
    (newZone "example.com") = .ok z := ⟨_, rfl⟩
  obtain ⟨z', hz', same, _⟩ := (bare_entry_iff rfl hz rfl (by decide) (.inl ⟨_, rfl⟩)
    (smallApex_instead "txt" _ _)).mpr trivial
  exact ⟨z, z', hz, hz', same⟩

/-- The mail server of that example is accepted in a list only. -/
theorem bare_mail_server_rejected :
    let e := Json.obj [("mx", .str "mail.example.com"), ("preference", .num (.ofInt 10 (by decide)))]
    ∃ z, setupZoneData smallExternals (smallApex "mx" (.arr [e])) (newZone "example.com") = .ok z ∧
      Instead (smallApex "mx" (.arr [e])) (smallApex "mx" e) "" "mx" (.arr [e]) e ∧
      setupZoneData smallExternals (smallApex "mx" e) (newZone "example.com") = .panic .typeAssert :=
  ⟨_, rfl, smallApex_instead "mx" _ _, rfl⟩

end GeoDNS.Zones
