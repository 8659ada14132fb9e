import GeoDNS.Zones.Order
import GeoDNS.Zones.Representation

/-!
# Labels that are replaced

Two keys of a data object that are one name in lower case stand for one label, and the label of the second
replaces that of the first: what counts is the last key of each name (`lastKey`, `readLabels_last`). The
other ones must be readable, and have no other effect than to make a zone one with nearest servers.

So two data objects with the same keys make the same zone, if whatever the one says under a key can be read
where the other is, and comes to the same label where it counts (`setupZoneData_same`). `labelOf_returns`
and `finishedLabel_records` take such a label apart.
-/

namespace GeoDNS.Zones
open GeoDNS.Lib GeoDNS.Dns

/-- The last key of the data object that stands for the label `k`. -/
def lastKey (data : GoMap String Json) (k : String) : Option String :=
  data.keys.reverse.find? (fun dk => toLower dk = k)

/-- What both passes make of a label. -/
def finishedLabel (ext : Externals) (origin : String) (options : ZoneOptions) (dk : String) (dv : Json) :
    Res Label := do
  let r ← labelOf ext origin options dk dv
  finishLabel options r.1

/-! ## The last key of a name -/

section
variable {ext : Externals} {data data' : GoMap String Json} {z start raw : RawZone} {k dk : String}
variable {dv : Json} {z1 : Zone}

/-- The last key is one of the name. -/
lemma toLower_lastKey (h : lastKey data k = some dk) : toLower dk = k := by
  have found := List.find?_some (p := fun dk => decide (toLower dk = k)) h
  exact of_decide_eq_true found

/-- The last key of a name depends on the keys only. -/
lemma lastKey_eq_of_keys (keys : data.keys = data'.keys) : lastKey data = lastKey data' := by
  funext k
  rw [lastKey, lastKey, keys]

/-- Later insertions replace earlier ones. -/
lemma lookup_insertAll_eq (labels : GoMap String RawLabel) (read : List (Σ _ : String, RawLabel × Bool))
    (k : String) : (insertAll labels read).lookup k =
      ((read.reverse.find? (fun e => toLower e.1 = k)).map (fun e => e.2.1)).or (labels.lookup k) := by
  induction read generalizing labels with
  | nil => rfl
  | cons e read ih =>
    have first : ([e].find? (fun e => toLower e.1 = k)).map (fun e => e.2.1) =
        if k = toLower e.1 then some e.2.1 else none := by
      by_cases hk : k = toLower e.1
      · simp [hk]
      · have ne : ¬ toLower e.1 = k := fun h => hk h.symm
        simp [hk, ne]
    have turn : insertAll labels (e :: read) = insertAll (labels.insert (toLower e.1) e.2.1) read := rfl
    rw [turn, ih, GoMap.lookup_insert_eq_ite, List.reverse_cons, List.find?_append]
    cases read.reverse.find? (fun e => toLower e.1 = k) with
    | some e' => rfl
    | none =>
      rw [Option.map_none, Option.none_or, Option.none_or, first]
      split <;> rfl

/-- The first pass files what it reads under the last key of each name. -/
theorem readLabels_last (empty : z.labels = ∅) (ok : readLabels ext data z = .ok raw) (k : String) :
    (lastKey data k = none ∧ raw.labels.lookup k = none) ∨
      ∃ dk dv l b, lastKey data k = some dk ∧ data.lookup dk = some dv ∧
        labelOf ext z.origin z.options dk dv = .ok (l, b) ∧ raw.labels.lookup k = some l := by
  unfold readLabels at ok
  rw [readLabels_eq] at ok
  obtain ⟨read, hread, rfl⟩ := Res.map_eq_ok.mp ok
  -- the last key is that of the entry found last
  have last : lastKey data k = (read.reverse.find? (fun e => toLower e.1 = k)).map Sigma.fst := by
    have names : data.keys = read.map Sigma.fst := (GoMap.keys_traverseEntries hread).symm
    rw [lastKey, names, ← List.map_reverse, List.find?_map]
    rfl
  dsimp only
  rw [empty, lookup_insertAll_eq, last]
  cases hfind : read.reverse.find? (fun e => toLower e.1 = k) with
  | none => exact .inl ⟨rfl, rfl⟩
  | some e =>
    obtain ⟨dk, l, b⟩ := e
    have mem := List.mem_reverse.mp (List.mem_of_find?_eq_some hfind)
    obtain ⟨dv, hdv, hlabel⟩ := GoMap.mem_traverseEntries data.nodupKeys hread mem
    exact .inr ⟨dk, dv, l, b, rfl, hdv, hlabel, rfl⟩

/-- Every label of an accepted data object can be read. -/
lemma setupZoneData_reads (ok : setupZoneData ext data start = .ok z1) (hdv : data.lookup dk = some dv) :
    ∃ r, labelOf ext start.origin start.options dk dv = .ok r := by
  obtain ⟨raw, hraw, _⟩ := Res.bind_eq_ok.mp ok
  exact readLabels_returns.mp ⟨raw, hraw⟩ dk dv hdv

/-- The last key of a name is where the label of this name comes from. -/
lemma setupZoneData_finished (empty : start.labels = ∅) (ok : setupZoneData ext data start = .ok z1)
    (hdv : data.lookup dk = some dv) (last : lastKey data (toLower dk) = some dk) :
    ∃ m l, finishedLabel ext start.origin start.options dk dv = .ok m ∧
      z1.labels.lookup (toLower dk) = some l ∧ ∀ t, t ≠ typeSOA → l.recordsOf t = m.recordsOf t := by
  obtain ⟨raw, hraw, ok⟩ := Res.bind_eq_ok.mp ok
  obtain ⟨z2, hz2, hsoa⟩ := Res.bind_eq_ok.mp ok
  have reads := readLabels_readFrom empty hraw
  have fin := finishLabels_finished (fun _ h => reads.toLower h) hz2
  have options : raw.options = start.options := by rw [reads.rest]
  rcases readLabels_last empty hraw (toLower dk) with ⟨none, _⟩ | ⟨dk', dv', l0, b, hlast, hdv', hread, hl0⟩
  · cases none.symm.trans last
  · cases hlast.symm.trans last
    cases hdv.symm.trans hdv'
    obtain ⟨m, hm, hfin⟩ := fin.read hl0
    rw [options] at hfin
    have finished : finishedLabel ext start.origin start.options dk dv = .ok m :=
      Res.bind_eq_ok.mpr ⟨_, hread, hfin⟩
    obtain ⟨_, rr, lookup⟩ := addSOA_lookup hsoa
    by_cases hk : toLower dk = ""
    · refine ⟨m, _, finished, (lookup _).trans (if_pos hk), ?_⟩
      intro t ht
      rw [← hk, hm, Option.getD_some, LabelOf.recordsOf_setRecords, if_neg ht]
    · exact ⟨m, m, finished, ((lookup _).trans (if_neg hk)).trans hm, fun _ _ => rfl⟩

/-! ## Two data objects with the same keys -/

/-- Whether there is a value depends on the keys only. -/
lemma lookup_of_keys (keys : data.keys = data'.keys) (h : data.lookup dk = some dv) :
    ∃ dv', data'.lookup dk = some dv' := by
  have mem : dk ∈ data.keys := AList.lookup_isSome.mp (by simp [h])
  rw [keys] at mem
  exact Option.isSome_iff_exists.mp (AList.lookup_isSome.mpr mem)

/-- The labels of the second object can be read where those of the first can, and close their zone alike. -/
def ReadsAlso (ext : Externals) (start : RawZone) (data data' : GoMap String Json) : Prop :=
  ∀ {dk dv dv' r}, data.lookup dk = some dv → data'.lookup dk = some dv' →
    labelOf ext start.origin start.options dk dv = .ok r →
    ∃ l', labelOf ext start.origin start.options dk dv' = .ok (l', r.2)

/-- The labels that count come to the same. -/
def FinishesAlso (ext : Externals) (start : RawZone) (data data' : GoMap String Json) : Prop :=
  ∀ {dk dv dv'}, data.lookup dk = some dv → data'.lookup dk = some dv' →
    lastKey data (toLower dk) = some dk →
    Res.Agree SameLabel (finishedLabel ext start.origin start.options dk dv)
      (finishedLabel ext start.origin start.options dk dv')

/-- The first pass over two such objects. -/
lemma ReadsAlso.readLabels (reads : ReadsAlso ext start data data') (empty : start.labels = ∅)
    (keys : data.keys = data'.keys) (ok : readLabels ext data start = .ok raw) :
    ∃ raw', readLabels ext data' start = .ok raw' ∧ raw'.hasClosest = raw.hasClosest := by
  have returns : ∀ {dk dv}, data.lookup dk = some dv →
      ∃ r, labelOf ext start.origin start.options dk dv = .ok r :=
    fun hdv => readLabels_returns.mp ⟨raw, ok⟩ _ _ hdv
  obtain ⟨raw', ok'⟩ : ∃ raw', Zones.readLabels ext data' start = .ok raw' := by
    refine readLabels_returns.mpr (fun dk dv' hdv' => ?_)
    obtain ⟨dv, hdv⟩ := lookup_of_keys keys.symm hdv'
    obtain ⟨r, hr⟩ := returns hdv
    obtain ⟨l', hl'⟩ := reads hdv hdv' hr
    exact ⟨_, hl'⟩
  refine ⟨raw', ok', ?_⟩
  rw [Bool.eq_iff_iff, (readLabels_readFrom empty ok').closest, (readLabels_readFrom empty ok).closest]
  apply or_congr_right
  constructor
  · rintro ⟨dk, dv', l', hdv', hr'⟩
    obtain ⟨dv, hdv⟩ := lookup_of_keys keys.symm hdv'
    obtain ⟨⟨l, b⟩, hr⟩ := returns hdv
    obtain ⟨l'', hl''⟩ := reads hdv hdv' hr
    cases hr'.symm.trans hl''
    exact ⟨dk, dv, l, hdv, hr⟩
  · rintro ⟨dk, dv, l, hdv, hr⟩
    obtain ⟨dv', hdv'⟩ := lookup_of_keys keys hdv
    obtain ⟨l', hl'⟩ := reads hdv hdv' hr
    exact ⟨dk, dv', l', hdv', hl'⟩

/-- The labels that the first pass leaves, name by name. -/
lemma FinishesAlso.labels {raw' : RawZone} (finishes : FinishesAlso ext start data data')
    (empty : start.labels = ∅) (keys : data.keys = data'.keys) (ok : readLabels ext data start = .ok raw)
    (ok' : readLabels ext data' start = .ok raw') (k : String) :
    Option.Rel (fun l l' =>
      Res.Agree SameLabel (finishLabel start.options l) (finishLabel start.options l'))
      (raw.labels.lookup k) (raw'.labels.lookup k) := by
  have same := lastKey_eq_of_keys keys
  rcases readLabels_last empty ok k with ⟨hn, hl⟩ | ⟨dk, dv, l, b, hlast, hdv, hread, hl⟩
  · rcases readLabels_last empty ok' k with ⟨_, hl'⟩ | ⟨dk', _, _, _, hlast', _⟩
    · rw [hl, hl']
      exact .none
    · rw [← same, hn] at hlast'
      cases hlast'
  · rcases readLabels_last empty ok' k with ⟨hn', _⟩ | ⟨dk', dv', l', b', hlast', hdv', hread', hl'⟩
    · rw [← same, hlast] at hn'
      cases hn'
    · rw [← same, hlast] at hlast'
      cases hlast'
      obtain rfl := toLower_lastKey hlast
      have agree := finishes hdv hdv' hlast
      rw [finishedLabel, finishedLabel, hread, hread'] at agree
      rw [hl, hl']
      exact .some agree

/-- A data object with the same keys as an accepted one makes the same zone, if each of its labels can be
    read, and those that count come to the same. -/
theorem setupZoneData_same (empty : start.labels = ∅) (keys : data.keys = data'.keys)
    (reads : ReadsAlso ext start data data') (finishes : FinishesAlso ext start data data')
    (ok : setupZoneData ext data start = .ok z1) :
    ∃ z1', setupZoneData ext data' start = .ok z1' ∧ SameZone z1 z1' ∧ z1.logging = z1'.logging := by
  obtain ⟨raw, hraw, ok⟩ := Res.bind_eq_ok.mp ok
  obtain ⟨z2, hz2, hsoa⟩ := Res.bind_eq_ok.mp ok
  obtain ⟨raw', hraw', closest⟩ := reads.readLabels empty keys hraw
  have readFrom := readLabels_readFrom empty hraw
  have readFrom' := readLabels_readFrom empty hraw'
  have options : raw.options = start.options := by rw [readFrom.rest]
  have options' : raw'.options = start.options := by rw [readFrom'.rest]
  have labels := finishes.labels empty keys hraw hraw'
  rw [← options] at labels
  have fin := finishLabels_finished (fun _ h => readFrom.toLower h) hz2
  obtain ⟨z2', hz2'⟩ : ∃ z2', finishLabels raw' = .ok z2' := by
    have returns : ∀ k l', raw'.labels.lookup k = some l' → ∃ m', finishLabel raw'.options l' = .ok m' := by
      intro k l' hl'
      obtain ⟨l, hl, agree⟩ := rel_left (labels k) hl'
      obtain ⟨m, _, hm⟩ := fin.read hl
      obtain ⟨m', hm', _⟩ := agree.right hm
      rw [options'.trans options.symm]
      exact ⟨m', hm'⟩
    obtain ⟨finished, hfinished⟩ := traverse_finishLabel_returns.mpr returns
    exact ⟨_, Res.bind_eq_ok.mpr ⟨finished, hfinished, rfl⟩⟩
  have fin' := finishLabels_finished (fun _ h => readFrom'.toLower h) hz2'
  have rest : raw' = { raw with labels := raw'.labels, logging := raw'.logging } := by
    rw [readFrom'.rest, readFrom.rest, closest]
  obtain ⟨z1', hz1', zones⟩ := (addSOA_agree (fin.same_of_labels fin' rest labels)).right hsoa
  refine ⟨z1', Res.bind_eq_ok.mpr ⟨raw', hraw', Res.bind_eq_ok.mpr ⟨z2', hz2', hz1'⟩⟩, zones, ?_⟩
  rw [(addSOA_lookup hsoa).1, (addSOA_lookup hz1').1, fin.rest, fin'.rest, readFrom.rest, readFrom'.rest]

end

/-! ## The fields of one label -/

section
variable {ext : Externals} {origin dk : String} {options : ZoneOptions} {fs fs' : List (String × Json)}
variable {r r' : RawLabel × Bool} {t : RRType} {rType : String} {v : Json} {m : Label}

/-- What is read for a label comes from the changes that its fields make. -/
lemma labelOf_obj (h : labelOf ext origin options dk (.obj fs) = .ok r) :
    ∃ changes, GoMap.traverseEntries (readChange ext origin (toLower dk) dk) (Json.fields fs).entries =
      .ok changes ∧ r = (applyAll (newLabel options dk) changes, changes.any (fun e => e.2.closes)) := by
  obtain ⟨fields, hfields, h⟩ := Res.bind_eq_ok.mp h
  cases hfields
  obtain ⟨changes, hchanges, h⟩ := Res.bind_eq_ok.mp h
  cases h
  exact ⟨changes, hchanges, rfl⟩

/-- A label can be read if each of its fields can. -/
lemma labelOf_returns : (∃ r, labelOf ext origin options dk (.obj fs) = .ok r) ↔
    ∀ key v, (Json.fields fs).lookup key = some v →
      ∃ c, readChange ext origin (toLower dk) dk key v = .ok c := by
  refine Iff.trans ?_ (GoMap.traverseEntries_returns (Json.fields fs).nodupKeys)
  constructor
  · rintro ⟨r, h⟩
    obtain ⟨changes, hchanges, _⟩ := labelOf_obj h
    exact ⟨changes, hchanges⟩
  · rintro ⟨changes, hchanges⟩
    exact ⟨_, Res.bind_eq_ok.mpr ⟨_, rfl, Res.bind_eq_ok.mpr ⟨changes, hchanges, rfl⟩⟩⟩

/-- The field of a record type is read if its records are. -/
lemma readChange_returns {label : String} (hk : recordTypes rType = some t) (ne : v ≠ .null) :
    (∃ c, readChange ext origin label dk rType v = .ok c) ↔
      ∃ slots, readSlots ext origin label dk t v = .ok slots := by
  rw [readChange_records hk ne]
  constructor
  · rintro ⟨c, h⟩
    obtain ⟨slots, hslots, _⟩ := Res.map_eq_ok.mp h
    exact ⟨slots, hslots⟩
  · rintro ⟨slots, hslots⟩
    exact ⟨_, Res.map_eq_ok.mpr ⟨slots, hslots, rfl⟩⟩

/-- The lists of an accepted object are read. -/
lemma setupZoneData_readSlots {data : GoMap String Json} {start : RawZone} {z : Zone}
    (ok : setupZoneData ext data start = .ok z) (hdv : data.lookup dk = some (.obj fs))
    (hk : recordTypes rType = some t) (hv : (Json.fields fs).lookup rType = some v) (ne : v ≠ .null) :
    ∃ slots, readSlots ext start.origin (toLower dk) dk t v = .ok slots :=
  (readChange_returns hk ne).mp (labelOf_returns.mp (setupZoneData_reads ok hdv) rType v hv)

/-- Whether a label makes its zone one with nearest servers is decided by its field `closest`. -/
lemma labelOf_closest (h : labelOf ext origin options dk (.obj fs) = .ok r)
    (h' : labelOf ext origin options dk (.obj fs') = .ok r')
    (same : (Json.fields fs).lookup "closest" = (Json.fields fs').lookup "closest") : r.2 = r'.2 := by
  obtain ⟨changes, hchanges, rfl⟩ := labelOf_obj h
  obtain ⟨changes', hchanges', rfl⟩ := labelOf_obj h'
  dsimp only
  rw [(fromFields_of_traverse (Json.fields fs).nodupKeys hchanges).any_closes,
    (fromFields_of_traverse (Json.fields fs').nodupKeys hchanges').any_closes]
  rw [GoMap.dlookup_traverseEntries_congr hchanges hchanges' same]

/-- The field of one record type leaves the slots and the weight of another one alone. -/
lemma Change.other_type {c : Change} {t' : RRType} (at_k : c.At rType) (hk : recordTypes rType = some t)
    (ne : t' ≠ t) : (∀ slots, c.slotsAfter t' slots = slots) ∧ ∀ w, c.weightAfter t' w = w := by
  cases c with
  | records t'' slots =>
    have at_k : recordTypes rType = some t'' := at_k
    have other : t' ≠ t'' := fun h => ne (h.trans (Option.some.inj (at_k.symm.trans hk)))
    exact ⟨fun _ => if_neg other, fun _ => if_neg other⟩
  | _ => exact ⟨fun _ => rfl, fun _ => rfl⟩

/-- The changes of a field leave alone what belongs to others. -/
lemma FromFields.elim_skips {τ : Type} {changes : List (Σ _ : String, Change)} (fields : FromFields changes)
    {after : τ → Change → τ} {x : τ} (skips : ∀ c, Change.At rType c → after x c = x) :
    (changes.dlookup rType).elim x (after x) = x := by
  cases hc : changes.dlookup rType with
  | none => rfl
  | some c => exact skips c (fields.belongs ⟨rType, c⟩ (List.of_mem_dlookup hc))

/-- Two labels that were read from the same fields, apart from those of one record type. -/
structure SameButRecords (t : RRType) (l l' : RawLabel) : Prop where
  label : l.label = l'.label
  maxHosts : l.maxHosts = l'.maxHosts
  ttl : l.ttl = l'.ttl
  records : ∀ t', t' ≠ t → l.recordsOf t' = l'.recordsOf t'
  weight : ∀ t', t' ≠ t → l.weight.lookup t' = l'.weight.lookup t'
  closest : l.closest = l'.closest
  test : l.test = l'.test

/-- Such labels are finished alike if the records of that type are. -/
lemma SameButRecords.finishAlike {l l' : RawLabel} {slots slots' : List (Option Record)}
    (same : SameButRecords t l l') (hs : l.recordsOf t = some slots) (hs' : l'.recordsOf t = some slots')
    (records : slots.mapM (finishRecord options.ttl l.ttl (setsWeight l t)) =
      slots'.mapM (finishRecord options.ttl l'.ttl (setsWeight l' t)))
    (totals : totalOf l t slots = totalOf l' t slots') : FinishAlike options l l' := by
  refine ⟨same.label, same.maxHosts, same.ttl, ?_, ?_, same.closest, same.test⟩
  · intro t'
    by_cases ht : t' = t
    · subst ht
      rw [hs, hs']
      exact .some ⟨records, totals⟩
    · have weight : l.weightOf t' = l'.weightOf t' := by
        rw [LabelOf.weightOf, LabelOf.weightOf, same.weight t' ht]
      have sets : setsWeight l t' = setsWeight l' t' := by rw [setsWeight, setsWeight, weight]
      rw [same.records t' ht]
      cases l'.recordsOf t' with
      | none => exact .none
      | some slots =>
        refine .some ⟨by rw [same.ttl, sets], ?_⟩
        rw [totalOf, totalOf, sets, weight]
  · intro t' none
    apply same.weight
    rintro rfl
    cases none.symm.trans hs

/-- The field of a record type sets the records of that type and nothing else. -/
lemma labelOf_sameButRecords {l l' : RawLabel} {b b' : Bool}
    (h : labelOf ext origin options dk (.obj fs) = .ok (l, b))
    (h' : labelOf ext origin options dk (.obj fs') = .ok (l', b')) (hk : recordTypes rType = some t)
    (same : ∀ key, key ≠ rType → (Json.fields fs).lookup key = (Json.fields fs').lookup key) :
    SameButRecords t l l' := by
  obtain ⟨changes, hchanges, e⟩ := labelOf_obj h
  obtain ⟨changes', hchanges', e'⟩ := labelOf_obj h'
  cases e
  cases e'
  have from_fields := fromFields_of_traverse (Json.fields fs).nodupKeys hchanges
  have from_fields' := fromFields_of_traverse (Json.fields fs').nodupKeys hchanges'
  have equal : ∀ key, key ≠ rType → changes.dlookup key = changes'.dlookup key :=
    fun key ne => GoMap.dlookup_traverseEntries_congr hchanges hchanges' (same key ne)
  -- the names of options are not those of record types
  have plain : ∀ key, recordTypes key = none → changes.dlookup key = changes'.dlookup key := by
    intro key none
    apply equal
    rintro rfl
    cases none.symm.trans hk
  refine ⟨by rw [applyAll_label, applyAll_label], ?_, ?_, ?_, ?_, ?_, ?_⟩
  · rw [from_fields.maxHosts, from_fields'.maxHosts, plain _ rfl]
  · rw [from_fields.ttl, from_fields'.ttl, plain _ rfl]
  · intro t' ne
    by_cases name : typeName t' = rType
    · have skips := fun c at_k => (Change.other_type (c := c) at_k hk ne).1 none
      rw [from_fields.recordsOf, from_fields'.recordsOf, name]
      exact (from_fields.elim_skips skips).trans (from_fields'.elim_skips skips).symm
    · rw [from_fields.recordsOf, from_fields'.recordsOf, equal _ name]
  · intro t' ne
    by_cases name : typeName t' = rType
    · have skips := fun c at_k => (Change.other_type (c := c) at_k hk ne).2 none
      rw [from_fields.weight, from_fields'.weight, name]
      exact (from_fields.elim_skips skips).trans (from_fields'.elim_skips skips).symm
    · rw [from_fields.weight, from_fields'.weight, equal _ name]
  · rw [from_fields.closest, from_fields'.closest, plain _ rfl]
  · rw [from_fields.test, from_fields'.test, plain _ rfl]

/-- The slots of a label that was read from these fields. -/
lemma labelOf_recordsOf {l : RawLabel} {b : Bool} (h : labelOf ext origin options dk (.obj fs) = .ok (l, b))
    (hk : recordTypes rType = some t) (hv : (Json.fields fs).lookup rType = some v) (ne : v ≠ .null) :
    ∃ slots, readSlots ext origin (toLower dk) dk t v = .ok slots ∧ l.recordsOf t = some slots ∧
      l.weightOf t = slotWeight slots := by
  obtain ⟨fields, same, _, fields_slots⟩ := labelOf_slots h
  cases same
  rcases fields_slots t with ⟨_, none⟩ | ⟨rType', v', slots, hk', hv', _, hss, hs, hw⟩
  · exact (ne (none rType v hk hv)).elim
  · rw [typeName_of_recordTypes hk', ← typeName_of_recordTypes hk, hv] at hv'
    cases hv'
    exact ⟨slots, hss, hs, hw⟩

/-- The records of a label that counts: one for each entry of their list. -/
lemma finishedLabel_records (h : finishedLabel ext origin options dk (.obj fs) = .ok m)
    (hk : recordTypes rType = some t) (hv : (Json.fields fs).lookup rType = some v) (ne : v ≠ .null) :
    ∃ rs entries read, m.recordsOf t = some rs ∧ recordEntries v = .ok entries ∧
      List.Forall₂ (fun e r => readRecord origin (toLower dk) dk t e = .ok (some r)) entries read ∧
      rs.Perm (read.map (settled options.ttl (ttlOf (Json.fields fs)) (weighsAlike t read))) := by
  obtain ⟨⟨l0, b⟩, hread, hfin⟩ := Res.bind_eq_ok.mp h
  obtain ⟨slots, hss, hs, hw⟩ := labelOf_recordsOf hread hk hv ne
  rcases (finishLabel_eq_ok hfin).2.2 t with ⟨hn, _⟩ | ⟨slots', rs, hs', hrs, hmap⟩
  · cases hs.symm.trans hn
  · cases hs.symm.trans hs'
    rw [labelOf_ttl hread] at hmap
    obtain ⟨entries, read, hentries, each, alike, perm, _⟩ :=
      readSlots_settled hss hmap (by rw [setsWeight, hw])
    rw [alike] at perm
    exact ⟨rs, entries, read, hrs, hentries, each, perm⟩

end

end GeoDNS.Zones
