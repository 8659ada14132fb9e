import GeoDNS.Lib.Agree
import GeoDNS.Zones.Settings

/-!
# Reading labels in another order

The first pass of the loader on two data objects that are the same up to the order of their fields, at
every depth: it rejects both, or it reads the same labels from both (`readLabels_agree`). A record is read
from its entry by looking up fields (`Entry.Same.readRecord`), so their order plays no part; the fields of
a label and the labels of a zone have different names, so each is read on its own (`labelOf_agree`).

The one place where an order gets into the zone is the object syntax for the records of a type, whose
fields become a list. It is meant for `NS` records. For any other type the entries of that list carry no
data and are all read alike (`readRecord_pair`).
-/

namespace GeoDNS.Zones
open GeoDNS.Lib GeoDNS.Dns GeoDNS.Health

/-- Two labels with the same content. -/
structure SameLabel {ρ : Type} (l l' : LabelOf ρ) : Prop where
  label : l.label = l'.label
  maxHosts : l.maxHosts = l'.maxHosts
  ttl : l.ttl = l'.ttl
  records : ∀ t, l.recordsOf t = l'.recordsOf t
  weight : ∀ t, l.weight.lookup t = l'.weight.lookup t
  closest : l.closest = l'.closest
  test : l.test = l'.test

/-- Two zones with the same content, apart from the logging options. -/
structure SameZone {ρ : Type} (z z' : ZoneOf ρ) : Prop where
  origin : z.origin = z'.origin
  labels : ∀ k, Option.Rel SameLabel (z.labels.lookup k) (z'.labels.lookup k)
  labelCount : z.labelCount = z'.labelCount
  options : z.options = z'.options
  hasClosest : z.hasClosest = z'.hasClosest
  parseIP : z.parseIP = z'.parseIP

/-- A label is the same as itself. -/
lemma SameLabel.refl {ρ : Type} (l : LabelOf ρ) : SameLabel l l :=
  ⟨rfl, rfl, rfl, fun _ => rfl, fun _ => rfl, rfl, rfl⟩

/-- Being the same label is symmetric. -/
lemma SameLabel.symm {ρ : Type} {l l' : LabelOf ρ} (same : SameLabel l l') : SameLabel l' l :=
  ⟨same.label.symm, same.maxHosts.symm, same.ttl.symm, fun t => (same.records t).symm,
    fun t => (same.weight t).symm, same.closest.symm, same.test.symm⟩

/-- Being the same label is transitive. -/
lemma SameLabel.trans {ρ : Type} {l l' l'' : LabelOf ρ} (same : SameLabel l l')
    (same' : SameLabel l' l'') : SameLabel l l'' :=
  ⟨same.label.trans same'.label, same.maxHosts.trans same'.maxHosts, same.ttl.trans same'.ttl,
    fun t => (same.records t).trans (same'.records t), fun t => (same.weight t).trans (same'.weight t),
    same.closest.trans same'.closest, same.test.trans same'.test⟩

/-- A zone is the same as itself. -/
lemma SameZone.refl {ρ : Type} (z : ZoneOf ρ) : SameZone z z := by
  exact ⟨rfl, fun k => rel_refl .refl _, rfl, rfl, rfl, rfl⟩

/-- Being the same zone is symmetric. -/
lemma SameZone.symm {ρ : Type} {z z' : ZoneOf ρ} (same : SameZone z z') : SameZone z' z := by
  refine ⟨same.origin.symm, ?_, same.labelCount.symm, same.options.symm, same.hasClosest.symm,
    same.parseIP.symm⟩
  exact fun k => rel_symm (same.labels k) (fun _ _ h => h.symm)

/-- Being the same zone is transitive. -/
lemma SameZone.trans {ρ : Type} {z z' z'' : ZoneOf ρ} (same : SameZone z z') (same' : SameZone z' z'') :
    SameZone z z'' := by
  refine ⟨same.origin.trans same'.origin, ?_, same.labelCount.trans same'.labelCount,
    same.options.trans same'.options, same.hasClosest.trans same'.hasClosest,
    same.parseIP.trans same'.parseIP⟩
  exact fun k => rel_trans (same.labels k) (same'.labels k) (fun _ _ _ h h' => h.trans h')

/-- The records of type `NS` are not given in the object syntax. -/
def NsListed (dv : Json) : Prop :=
  ∀ fields, dv = .obj fields → ∀ l, (Json.fields fields).lookup "ns" ≠ some (.obj l)

/-- Two entries that are the same up to the order of their fields. -/
inductive Entry.Same : Entry → Entry → Prop
  | json {j j'} : Json.Same j j' → Entry.Same (.json j) (.json j')
  | pair (k v) : Entry.Same (.pair k v) (.pair k v)

/-! ## One record -/

section
variable {j j' : Json} {e e' : Entry} {t : RRType} {test origin label dk : String} {h : Header}

/-- The same values are read as the same numbers. -/
lemma toInt_same (same : j.Same j') : Typeutil.toInt j = Typeutil.toInt j' := by
  cases same <;> rfl

/-- The same values are read as the same texts. -/
lemma toString_same (same : j.Same j') : Typeutil.toString j = Typeutil.toString j' := by
  cases same <;> rfl

/-- The same values are read as the same truth values. -/
lemma toBool_same (same : j.Same j') : Typeutil.toBool j = Typeutil.toBool j' := by
  cases same <;> rfl

/-- The same lists have the same text and weight. -/
lemma getStringWeight_same {l l' : List Json} (same : List.Forall₂ Json.Same l l') :
    getStringWeight l = getStringWeight l' := by
  cases same with
  | nil => rfl
  | cons first rest =>
    unfold getStringWeight
    simp only [List.head?_cons, Res.get_some, Res.ok_bind, List.tail_cons, first.asStr]
    cases rest with
    | nil => rfl
    | cons second _ => cases second <;> rfl

/-- The same objects have the same number under a key. -/
lemma optionalInt_same {m m' : GoMap String Json} (same : Json.SameFields m m') (k : String) :
    optionalInt m k = optionalInt m' k := by
  have field := same.getKey k
  unfold optionalInt
  generalize Json.getKey m k = a at field ⊢
  generalize Json.getKey m' k = b at field ⊢
  cases field <;> rfl

/-- Entries that are the same are read alike if lists and objects are. -/
lemma Entry.Same.read {α : Type} {f : Entry → α} (same : e.Same e')
    (arr : ∀ l l', List.Forall₂ Json.Same l l' → f (.json (.arr l)) = f (.json (.arr l')))
    (obj : ∀ l l', Json.SameFields (Json.fields l) (Json.fields l') →
      f (.json (.obj l)) = f (.json (.obj l'))) : f e = f e' := by
  cases same with
  | pair k v => rfl
  | json same =>
    cases same with
    | arr items => exact arr _ _ items
    | obj fields => exact obj _ _ fields
    | _ => rfl

/-- The same entries have the same test. -/
lemma Entry.Same.overrideTest (same : e.Same e') : overrideTest e = overrideTest e' := by
  refine same.read (fun _ _ _ => rfl) (fun l l' fields => ?_)
  have field := fields "health"
  unfold Zones.overrideTest
  dsimp only
  generalize (Json.fields l).lookup "health" = a at field ⊢
  generalize (Json.fields l').lookup "health" = b at field ⊢
  cases field with
  | none => rfl
  | some same => cases same <;> rfl

/-- The same entries have the same fields of an address. -/
lemma Entry.Same.addressFields (same : e.Same e') :
    addressFields t test e = addressFields t test e' := by
  refine same.read (fun l l' items => ?_) (fun l l' fields => ?_)
  · simp only [Zones.addressFields, getStringWeight_same items]
  · simp only [Zones.addressFields, fields.elim "ip" Json.Same.asStr,
      (fields.getKey (addressKey t)).asStr, fields.elim "weight" toInt_same,
      fields.elim "health" toString_same]

/-- The same entries are read as the same address. -/
lemma Entry.Same.readAddress (same : e.Same e') :
    readAddress t h dk test e = readAddress t h dk test e' := by
  simp only [Zones.readAddress, same.addressFields]

/-- The same entries have the same fields of a canonical name. -/
lemma Entry.Same.cnameFields (same : e.Same e') : cnameFields test e = cnameFields test e' := by
  refine same.read (fun l l' items => ?_) (fun l l' fields => ?_)
  · simp only [Zones.cnameFields, getStringWeight_same items]
  · simp only [Zones.cnameFields, fields.elim "cname" toString_same, fields.elim "weight" toInt_same,
      fields.elim "health" toString_same]

/-- The same entries are read as the same canonical name. -/
lemma Entry.Same.readCNAME (same : e.Same e') :
    readCNAME origin h test e = readCNAME origin h test e' := by
  simp only [Zones.readCNAME, same.cnameFields]

/-- The same entries are read as the same mail server. -/
lemma Entry.Same.readMX (same : e.Same e') : readMX h test e = readMX h test e' := by
  refine same.read (fun _ _ _ => rfl) (fun l l' fields => ?_)
  simp only [Zones.readMX, Entry.asObj, Json.asObj, Res.ok_bind, (fields.getKey "mx").asStr,
    optionalInt_same fields]

/-- The same entries are read as the same service. -/
lemma Entry.Same.readSRV (same : e.Same e') : readSRV origin h test e = readSRV origin h test e' := by
  refine same.read (fun _ _ _ => rfl) (fun l l' fields => ?_)
  simp only [Zones.readSRV, Entry.asObj, Json.asObj, Res.ok_bind, (fields.getKey "target").asStr,
    optionalInt_same fields]

/-- The same entries are read as the same alias. -/
lemma Entry.Same.readMF (same : e.Same e') : readMF h test e = readMF h test e' := by
  cases same with
  | pair k v => rfl
  | json same => simp only [Zones.readMF, same.asStr]

/-- The same entries are read as the same name server. -/
lemma Entry.Same.readNS (same : e.Same e') : readNS h test e = readNS h test e' := by
  cases same with
  | pair k v => rfl
  | json same => cases same <;> rfl

/-- The same entries are read as the same text. -/
lemma Entry.Same.readText {key : String} {mk : List String → RData} (same : e.Same e') :
    readText key mk h test e = readText key mk h test e' := by
  have text : textFields key e = textFields key e' := by
    refine same.read (fun _ _ _ => rfl) (fun l l' fields => ?_)
    simp only [textFields, fields.elim "weight" toInt_same, fields.elim key Json.Same.asStr]
  simp only [Zones.readText, text]

/-- A record does not depend on the order of the fields of its entry. -/
theorem Entry.Same.readRecord (same : e.Same e') :
    readRecord origin label dk t e = readRecord origin label dk t e' := by
  simp only [Zones.readRecord, same.overrideTest, same.readAddress, same.readMX, same.readSRV,
    same.readCNAME, same.readMF, same.readNS, same.readText]

/-- Apart from `NS` records, the entries of the object syntax are all read alike. -/
lemma readRecord_pair (ht : t ≠ typeNS) (k v k' v' : String) :
    readRecord origin label dk t (.pair k v) = readRecord origin label dk t (.pair k' v') := by
  simp only [Zones.readRecord, if_neg ht]
  rfl

end

/-! ## The records of one type -/

section
variable {ext : Externals} {origin label dk : String} {t : RRType} {j j' : Json}

/-- An entry of the object syntax. -/
def Entry.IsPair (e : Entry) : Prop :=
  ∃ k v, e = .pair k v

/-- The record lists of two objects: as long as each other, and all of their entries of that syntax. -/
lemma recordEntries_obj {l l' : List (String × Json)}
    (same : Json.SameFields (Json.fields l) (Json.fields l')) :
    Res.Agree (List.Forall₂ (fun e e' => e.IsPair ∧ e'.IsPair)) (recordEntries (.obj l))
      (recordEntries (.obj l')) := by
  apply GoMap.mapM_entries_agree same
  intro k v v' value
  cases value with
  | null => exact .ok ⟨⟨k, "", rfl⟩, k, "", rfl⟩
  | str s => exact .ok ⟨⟨k, s, rfl⟩, k, s, rfl⟩
  | _ => exact .fail (fun _ h => by cases h) (fun _ h => by cases h)

/-- The same lists are read as the same records, in whatever order an object is gone through. -/
lemma readSlots_agree (same : j.Same j') (ns : t = typeNS → ∀ l, j ≠ .obj l) :
    Res.Agree Eq (readSlots ext origin label dk t j) (readSlots ext origin label dk t j') := by
  have slots : ∀ {R : Entry → Entry → Prop} {es es' : List Entry}, List.Forall₂ R es es' →
      (∀ e e', R e e' → readRecord origin label dk t e = readRecord origin label dk t e') →
      es.mapM (readRecord origin label dk t) = es'.mapM (readRecord origin label dk t) := by
    intro R es es' related step
    induction related with
    | nil => rfl
    | cons h _ ih => rw [List.mapM_cons, List.mapM_cons, step _ _ h, ih]
  cases same with
  | arr items =>
    apply Res.Agree.of_eq (fun _ => rfl)
    have entries : ∀ {items items' : List Json}, List.Forall₂ Json.Same items items' →
        List.Forall₂ Entry.Same (items.map Entry.json) (items'.map Entry.json) := by
      intro items items' related
      induction related with
      | nil => exact .nil
      | cons h _ ih => exact .cons (.json h) ih
    simp only [readSlots, recordEntries, Json.asArr, Res.ok_bind, Res.pure_eq_ok,
      slots (entries items) (fun _ _ => Entry.Same.readRecord)]
  | @obj l l' fields =>
    have notNS : t ≠ typeNS := fun ht => ns ht l rfl
    refine (recordEntries_obj fields).bind (fun es es' related => .of_eq (fun _ => rfl) ?_)
    rw [slots related]
    rintro e e' ⟨⟨k, v, rfl⟩, k', v', rfl⟩
    exact readRecord_pair notNS k v k' v'
  | _ => exact .refl (fun _ => rfl) _

/-! ## One label -/

/-- The same objects make the same health reference. -/
lemma newReferenceFromMap_same {m m' : GoMap String Json} (same : Json.SameFields m m') :
    newReferenceFromMap m = newReferenceFromMap m' := by
  simp only [newReferenceFromMap, same.elim "type" toString_same, same.elim "name" toString_same]

/-- The same values make the same change of the health test. -/
lemma healthChange_same (same : j.Same j') : healthChange j = healthChange j' := by
  cases same with
  | obj fields => simp only [healthChange, newReferenceFromMap_same fields]
  | _ => rfl

/-- The same fields make the same change. -/
lemma readChange_agree {k : String} (same : j.Same j') (ns : k = "ns" → ∀ l, j ≠ .obj l) :
    Res.Agree Eq (readChange ext origin label dk k j) (readChange ext origin label dk k j') := by
  unfold readChange
  split_ifs with hmax hclosest httl hhealth
  · exact .of_eq (fun _ => rfl) (by rw [toInt_same same])
  · exact .of_eq (fun _ => rfl) (by rw [same.asBool])
  · exact .of_eq (fun _ => rfl) (by rw [toInt_same same])
  · exact .of_eq (fun _ => rfl) (healthChange_same same)
  · cases hk : recordTypes k with
    | none => exact .refl (fun _ => rfl) _
    | some t =>
      have ns' : t = typeNS → ∀ l, j ≠ .obj l := by
        rintro rfl
        exact ns (typeName_of_recordTypes hk)
      have slots : Res.Agree Eq (readSlots ext origin label dk t j)
          (readSlots ext origin label dk t j') := readSlots_agree same ns'
      cases same with
      | null => exact .refl (fun _ => rfl) _
      | _ => exact slots.map (fun _ _ e => congrArg _ e)

/-- Changes under the same names lead to the same label. -/
lemma sameLabel_applyAll {changes changes' : List (Σ _ : String, Change)} (fields : FromFields changes)
    (fields' : FromFields changes') (same : ∀ k, changes.dlookup k = changes'.dlookup k)
    (l : RawLabel) : SameLabel (applyAll l changes) (applyAll l changes') where
  label := by rw [applyAll_label, applyAll_label]
  maxHosts := by rw [fields.maxHosts, fields'.maxHosts, same]
  ttl := by rw [fields.ttl, fields'.ttl, same]
  records := fun t => by rw [fields.recordsOf, fields'.recordsOf, same]
  weight := fun t => by rw [fields.weight, fields'.weight, same]
  closest := by rw [fields.closest, fields'.closest, same]
  test := by rw [fields.test, fields'.test, same]

/-- Two labels read, and the flags that they set. -/
def SameRead (r r' : RawLabel × Bool) : Prop :=
  SameLabel r.1 r'.1 ∧ r.2 = r'.2

/-- Two objects whose fields make the same changes, name by name, are read as the same label. -/
theorem labelOf_agree_of_fields {options : ZoneOptions} {l l' : List (String × Json)}
    (related : ∀ k, Option.Rel (fun v v' => Res.Agree Eq (readChange ext origin (toLower dk) dk k v)
      (readChange ext origin (toLower dk) dk k v')) ((Json.fields l).lookup k) ((Json.fields l').lookup k)) :
    Res.Agree SameRead (labelOf ext origin options dk (.obj l))
      (labelOf ext origin options dk (.obj l')) := by
  have nodup := (Json.fields l).nodupKeys
  have nodup' := (Json.fields l').nodupKeys
  have agree : Res.Agree (fun xs ys => ∀ k, Option.Rel Eq (xs.dlookup k) (ys.dlookup k))
      (GoMap.traverseEntries (readChange ext origin (toLower dk) dk) (Json.fields l).entries)
      (GoMap.traverseEntries (readChange ext origin (toLower dk) dk) (Json.fields l').entries) :=
    GoMap.traverseEntries_agree nodup nodup' related (fun _ _ _ r => r)
  refine agree.with_eq.bind ?_
  rintro changes changes' ⟨equal, h, h'⟩
  have equal : ∀ k, changes.dlookup k = changes'.dlookup k :=
    fun k => eq_of_rel (equal k) (fun _ _ e => e)
  have from_fields := fromFields_of_traverse nodup h
  have from_fields' := fromFields_of_traverse nodup' h'
  refine .ok ⟨sameLabel_applyAll from_fields from_fields' equal _, ?_⟩
  rw [from_fields.any_closes, from_fields'.any_closes, equal]

/-- A label does not depend on the order of its fields. -/
theorem labelOf_agree {options : ZoneOptions} (same : j.Same j') (ns : NsListed j) :
    Res.Agree SameRead (labelOf ext origin options dk j) (labelOf ext origin options dk j') := by
  cases same with
  | @obj l l' fields =>
    have fields : Json.SameFields (Json.fields l) (Json.fields l') := fields
    apply labelOf_agree_of_fields
    intro k
    refine rel_of_isSome ((AList.lookup_isSome.trans (fields.mem_iff k)).trans
      AList.lookup_isSome.symm) ?_
    intro v v' hv hv'
    obtain ⟨w, hw, value⟩ := rel_right (fields k) hv
    obtain rfl := Option.some.inj (hw.symm.trans hv')
    refine readChange_agree value ?_
    rintro rfl o rfl
    exact ns l rfl o hv
  | _ => exact .fail (fun _ h => by cases h) (fun _ h => by cases h)

/-! ## All labels -/

/-- No label of the data object gives its `NS` records in the object syntax. -/
def AllNsListed (data : GoMap String Json) : Prop :=
  ∀ dk dv, data.lookup dk = some dv → NsListed dv

variable {data data' : GoMap String Json} {z z' : RawZone}

/-- If the keys of an object are distinct, so are those of the same object. -/
lemma DistinctKeys.same (same : Json.SameFields data data') (distinct : DistinctKeys data) :
    DistinctKeys data' := by
  intro k hk k' hk' e
  exact distinct k ((same.mem_iff k).mpr hk) k' ((same.mem_iff k').mpr hk') e

/-- The first pass does not depend on the order of the labels and of their fields. -/
theorem readLabels_agree (same : Json.SameFields data data') (distinct : DistinctKeys data)
    (ns : AllNsListed data) (zones : SameZone z z') (empty : z.labels = ∅) (empty' : z'.labels = ∅) :
    Res.Agree SameZone (readLabels ext data z) (readLabels ext data' z') := by
  -- what is read for a label of either object
  have label : ∀ {dk dv dv'}, data.lookup dk = some dv → dv.Same dv' →
      Res.Agree SameRead (labelOf ext z.origin z.options dk dv)
        (labelOf ext z'.origin z'.options dk dv') := by
    intro dk dv dv' hdv value
    rw [← zones.origin, ← zones.options]
    exact labelOf_agree value (ns dk dv hdv)
  apply Res.Agree.of_returns
  · rw [readLabels_returns, readLabels_returns]
    constructor
    · intro h dk dv' hdv'
      obtain ⟨dv, hdv, value⟩ := rel_left (same dk) hdv'
      exact (label hdv value).returns_iff.mp (h dk dv hdv)
    · intro h dk dv hdv
      obtain ⟨dv', hdv', value⟩ := rel_right (same dk) hdv
      exact (label hdv value).returns_iff.mpr (h dk dv' hdv')
  · intro raw raw' h h'
    have reads := readLabels_readFrom empty h
    have reads' := readLabels_readFrom empty' h'
    rw [reads.rest, reads'.rest]
    refine ⟨zones.origin, ?_, zones.labelCount, zones.options, ?_, zones.parseIP⟩
    · intro k
      show Option.Rel SameLabel (raw.labels.lookup k) (raw'.labels.lookup k)
      cases hl : raw.labels.lookup k with
      | some l =>
        obtain ⟨dk, dv, b, hdv, rfl, hr⟩ := reads.labels hl
        obtain ⟨dv', hdv', value⟩ := rel_right (same dk) hdv
        obtain ⟨⟨l', b'⟩, hr', sameRead⟩ := (label hdv value).right hr
        rw [reads'.lookup (distinct.same same) hdv' hr']
        exact .some sameRead.1
      | none =>
        cases hl' : raw'.labels.lookup k with
        | none => exact .none
        | some l' =>
          obtain ⟨dk, dv', b', hdv', rfl, hr'⟩ := reads'.labels hl'
          obtain ⟨dv, hdv, value⟩ := rel_left (same dk) hdv'
          obtain ⟨⟨l, b⟩, hr, _⟩ := (label hdv value).left hr'
          rw [reads.lookup distinct hdv hr] at hl
          cases hl
    · show raw.hasClosest = raw'.hasClosest
      rw [Bool.eq_iff_iff, reads.closest, reads'.closest, zones.hasClosest]
      apply or_congr_right
      constructor
      · rintro ⟨dk, dv, l, hdv, hr⟩
        obtain ⟨dv', hdv', value⟩ := rel_right (same dk) hdv
        obtain ⟨⟨l', b'⟩, hr', sameRead⟩ := (label hdv value).right hr
        obtain rfl : true = b' := sameRead.2
        exact ⟨dk, dv', l', hdv', hr'⟩
      · rintro ⟨dk, dv', l', hdv', hr'⟩
        obtain ⟨dv, hdv, value⟩ := rel_left (same dk) hdv'
        obtain ⟨⟨l, b⟩, hr, sameRead⟩ := (label hdv value).left hr'
        obtain rfl : b = true := sameRead.2
        exact ⟨dk, dv, l, hdv, hr⟩

end

/-! ## The options of a document -/

/-- The same setting, with any logging options and with the fields of the data object in any order. -/
inductive Setting.Same : Setting → Setting → Prop
  | refl (s) : Same s s
  | logging (l l') : Same (.logging l) (.logging l')
  | data {d d'} : Json.SameFields d d' → Same (.data d) (.data d')

section
variable {k : String} {v v' : Json} {m m' : GoMap String Json}

/-- Whether the logging options can be read does not depend on their order. -/
lemma readLogging_agree (same : Json.SameFields m m') :
    Res.Agree (fun _ _ => True) (readLogging m) (readLogging m') := by
  -- a field can be read or not, whatever has been read before
  have returns : ∀ m : GoMap String Json, (∃ l, readLogging m = .ok l) ↔
      ∀ k v, m.lookup k = some v → (k = "stathat" → ∃ b, Typeutil.toBool v = .ok b) ∧
        (k = "stathat_api" → ∃ s, Typeutil.toString v = .ok s) := by
    intro m
    unfold readLogging
    rw [Res.foldlM_returns_iff (P := fun e => (e.1 = "stathat" → ∃ b, Typeutil.toBool e.2 = .ok b) ∧
      (e.1 = "stathat_api" → ∃ s, Typeutil.toString e.2 = .ok s))]
    · constructor
      · intro h k v hv
        exact h ⟨k, v⟩ (GoMap.mem_entries_iff.mpr hv)
      · rintro h ⟨k, v⟩ he
        exact h k v (GoMap.mem_entries_iff.mp he)
    · rintro l ⟨k, v⟩
      dsimp only
      split_ifs with hstat hapi
      · subst hstat
        cases Typeutil.toBool v <;> simp
      · subst hapi
        cases Typeutil.toString v <;> simp
      · simp [hstat, hapi]
  apply Res.Agree.of_returns
  · rw [returns, returns]
    constructor
    · intro h k v' hv'
      obtain ⟨v, hv, value⟩ := rel_left (same k) hv'
      rw [← toBool_same value, ← toString_same value]
      exact h k v hv
    · intro h k v hv
      obtain ⟨v', hv', value⟩ := rel_right (same k) hv
      rw [toBool_same value, toString_same value]
      exact h k v' hv'
  · exact fun _ _ _ _ => trivial

/-- The same values are the same objects. -/
lemma asObj_agree (same : v.Same v') : Res.Agree Json.SameFields v.asObj v'.asObj := by
  cases same with
  | obj fields => exact .ok fields
  | _ => exact .fail (fun _ h => by cases h) (fun _ h => by cases h)

/-- The same values are the same setting. -/
lemma readSetting_agree (same : v.Same v') :
    Res.Agree Setting.Same (readSetting k v) (readSetting k v') := by
  unfold readSetting
  have int {mk : Int → Setting} : Res.Agree Setting.Same (mk <$> Typeutil.toInt v)
      (mk <$> Typeutil.toInt v') := by
    rw [toInt_same same]
    exact .refl .refl _
  have bool {mk : Bool → Setting} : Res.Agree Setting.Same (mk <$> v.asBool) (mk <$> v'.asBool) := by
    rw [same.asBool]
    exact .refl .refl _
  -- One branch per key of the source's switch.
  refine .ite int (.ite int (.ite ?contact (.ite int (.ite bool (.ite ?targeting (.ite ?logging
    (.ite ?data (.ite bool (.ok (.refl _))))))))))
  case contact =>
    rw [same.asStr]
    exact .refl .refl _
  case targeting =>
    rw [same.asStr]
    exact .refl .refl _
  case logging =>
    refine (asObj_agree same).bind (fun o o' fields => ?_)
    exact (readLogging_agree fields).bind (fun l l' _ => .ok (.logging l l'))
  case data => exact (asObj_agree same).map (fun _ _ => .data)

/-- The zones and the data objects read so far are the same; no labels have been read yet. -/
structure SameState (st st' : RawZone × GoMap String Json) : Prop where
  zones : SameZone st.1 st'.1
  data : Json.SameFields st.2 st'.2
  empty : st.1.labels = ∅
  empty' : st'.1.labels = ∅

/-- The same settings keep the states the same. -/
lemma SameState.apply {st st' : RawZone × GoMap String Json} {s s' : Setting} (states : SameState st st')
    (same : s.Same s') : SameState (s.apply st) (s'.apply st') := by
  obtain ⟨zones, data, empty, empty'⟩ := states
  cases same with
  | logging l l' =>
    exact ⟨⟨zones.origin, zones.labels, zones.labelCount, zones.options, zones.hasClosest,
      zones.parseIP⟩, data, empty, empty'⟩
  | data fields => exact ⟨zones, fields, empty, empty'⟩
  | refl =>
    cases s with
    | data d => exact ⟨zones, .refl d, empty, empty'⟩
    | nothing => exact ⟨zones, data, empty, empty'⟩
    | _ =>
      refine ⟨⟨zones.origin, zones.labels, zones.labelCount, ?_, ?_, ?_⟩, data, empty, empty'⟩
      · simp only [Setting.apply, zones.options]
      · simp only [Setting.apply, zones.hasClosest]
      · simp only [Setting.apply, zones.parseIP]

/-- Settings of different fields can be made in either order. -/
lemma Setting.apply_comm {k k' : String} {s s' : Setting} (at_k : s.At k) (at_k' : s'.At k') (ne : k ≠ k')
    (st : RawZone × GoMap String Json) : s'.apply (s.apply st) = s.apply (s'.apply st) := by
  cases s <;> cases s' <;> first | rfl | exact (ne (at_k.trans at_k'.symm)).elim

/-- The options and the data object of a document do not depend on the order of its fields. -/
theorem readOptions_agree (same : Json.SameFields m m') {z : RawZone} (empty : z.labels = ∅) :
    Res.Agree SameState (accepted (readOptions m.entries z ∅)) (accepted (readOptions m'.entries z ∅)) := by
  have settings : Res.Agree
      (fun xs ys => ∀ k, Option.Rel Setting.Same (xs.dlookup k) (ys.dlookup k))
      (GoMap.traverseEntries readSetting m.entries) (GoMap.traverseEntries readSetting m'.entries) :=
    GoMap.traverseEntries_agree m.nodupKeys m'.nodupKeys same (fun _ _ _ => readSetting_agree)
  rw [accepted_readOptions, accepted_readOptions]
  refine settings.with_eq.map ?_
  rintro settings settings' ⟨related, h, h'⟩
  obtain ⟨nodup, _⟩ := readSettings_belong m.nodupKeys h
  obtain ⟨nodup', belongs⟩ := readSettings_belong m'.nodupKeys h'
  apply GoMap.foldl_related nodup nodup' related
  · intro st st' k s s' states same
    exact states.apply same
  · intro e he e' he' ne st
    exact Setting.apply_comm (belongs e he) (belongs e' he') ne st
  · exact ⟨.refl z, .refl ∅, empty, empty⟩

end
end GeoDNS.Zones
