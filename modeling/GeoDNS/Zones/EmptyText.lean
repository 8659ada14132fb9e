import GeoDNS.Zones.Overwritten

/-!
# Empty texts

The loader skips an entry of a `txt` or `spf` list that has no text, but the slot that was made for it
stays, and stays nil. Sorting the slots compares the records in them, and the second pass sets their TTLs:
both dereference the nil, and the whole file is rejected. The entry does no harm only where neither of them
comes to it, in a list without a positive weight whose label is replaced by a later key of the same name.

`padding_returns_iff` is about one list, `empty_texts_skipped_iff` about a whole data object.
-/

namespace GeoDNS.Zones
open GeoDNS.Lib GeoDNS.Dns

/-- The fields whose lists may have empty entries. -/
def IsTextKey (key : String) : Prop :=
  key = "txt" ∨ key = "spf"

/-- An entry without text for the list `key`: the empty text, or an object that has none. -/
inductive NoText (key : String) : Json → Prop
  | text : NoText key (.str "")
  | missing {fs} : (Json.fields fs).lookup key = none → NoText key (.obj fs)
  | object {fs} : (Json.fields fs).lookup key = some (.str "") → NoText key (.obj fs)

/-- The second list is the first one with entries without text put in. -/
inductive Padding (key : String) : List Json → List Json → Prop
  | nil : Padding key [] []
  | keep {js js'} (j) : Padding key js js' → Padding key (j :: js) (j :: js')
  | insert {js js' j} : NoText key j → Padding key js js' → Padding key js (j :: js')

/-- The value of a field, with empty entries put into its list. -/
inductive PaddedField (key : String) : Json → Json → Prop
  | same (j) : PaddedField key j j
  | list {js js'} : IsTextKey key → Padding key js js' → PaddedField key (.arr js) (.arr js')

/-- A label, with empty entries put into its lists. -/
inductive PaddedLabel : Json → Json → Prop
  | same (j) : PaddedLabel j j
  | fields {fs fs'} : (∀ key, Option.Rel (PaddedField key) ((Json.fields fs).lookup key)
      ((Json.fields fs').lookup key)) → PaddedLabel (.obj fs) (.obj fs')

/-- A data object, with empty entries put into the lists of its labels. -/
structure PaddedData (data data' : GoMap String Json) : Prop where
  keys : data.keys = data'.keys
  labels : ∀ dk, Option.Rel PaddedLabel (data.lookup dk) (data'.lookup dk)

/-- The weight of an entry of the list `key`; one without text has none. -/
def textWeight (key : String) (j : Json) : Int64 :=
  match textFields key (.json j) with
  | .ok (txt, weight) => if txt = "" then 0 else Int64.ofInt weight
  | _ => 0

/-- The weight of an entry is a number, if it has one. -/
def WeightReads (j : Json) : Prop :=
  ∀ fs, j = .obj fs → ∀ w, (Json.fields fs).lookup "weight" = some w → ∃ n, Typeutil.toInt w = .ok n

/-- Empty entries have been put only into lists without a positive weight, as Go sums it up, of labels that
    are replaced, and only such whose weight can be read. -/
def Harmless (data data' : GoMap String Json) : Prop :=
  ∀ dk fs fs' key js js', data.lookup dk = some (.obj fs) → data'.lookup dk = some (.obj fs') →
    IsTextKey key → (Json.fields fs).lookup key = some (.arr js) →
    (Json.fields fs').lookup key = some (.arr js') → js ≠ js' →
    lastKey data (toLower dk) ≠ some dk ∧ ¬ 0 < (js.map (textWeight key)).sum ∧ ∀ j ∈ js', WeightReads j

/-! ## One entry -/

section
variable {ext : Externals} {origin label dk key : String} {t : RRType} {j : Json} {slot : Option Record}
variable {js js' : List Json}

/-- The record types of texts, and how they are read. -/
lemma IsTextKey.readRecord (text : IsTextKey key) (hk : recordTypes key = some t)
    (origin label dk : String) : ∃ mk, ∀ e, Zones.readRecord origin label dk t e =
      readText key mk ⟨ownerName origin label, t, classINET, 0⟩ (overrideTest e) e := by
  rcases text with rfl | rfl
  · cases hk
    exact ⟨.txt, fun _ => rfl⟩
  · cases hk
    exact ⟨.spf, fun _ => rfl⟩

/-- A field of texts is one of records. -/
lemma IsTextKey.recordTypes (text : IsTextKey key) : ∃ t, Zones.recordTypes key = some t := by
  rcases text with rfl | rfl
  · exact ⟨typeTXT, rfl⟩
  · exact ⟨typeSPF, rfl⟩

/-- An entry whose text and weight are read. -/
lemma weightReads_of_textFields {p : String × Int} (h : textFields key (.json j) = .ok p) :
    WeightReads j := by
  rintro fs rfl w hw
  obtain ⟨n, hn, _⟩ := Res.bind_eq_ok.mp h
  rw [hw] at hn
  exact ⟨n, hn⟩

/-- The text of an entry without text. -/
lemma NoText.textFields {txt : String} {weight : Int} (no : NoText key j)
    (h : textFields key (.json j) = .ok (txt, weight)) : txt = "" := by
  cases no with
  | text =>
    cases h
    rfl
  | missing none =>
    obtain ⟨n, _, h⟩ := Res.bind_eq_ok.mp h
    rw [none] at h
    cases h
    rfl
  | object blank =>
    obtain ⟨n, _, h⟩ := Res.bind_eq_ok.mp h
    rw [blank] at h
    cases h
    rfl

/-- An entry without text is read as the empty text. -/
lemma NoText.textFields_returns (no : NoText key j) (reads : WeightReads j) :
    ∃ weight, Zones.textFields key (.json j) = .ok ("", weight) := by
  have weight : ∀ fs, j = .obj fs →
      ∃ n, ((Json.fields fs).lookup "weight").elim (.ok 0) Typeutil.toInt = .ok n := by
    intro fs hj
    cases hw : (Json.fields fs).lookup "weight" with
    | none => exact ⟨0, rfl⟩
    | some w => exact reads fs hj w hw
  cases no with
  | text => exact ⟨0, rfl⟩
  | @missing fs none =>
    obtain ⟨n, hn⟩ := weight fs rfl
    refine ⟨n, Res.bind_eq_ok.mpr ⟨n, hn, ?_⟩⟩
    rw [none]
    rfl
  | @object fs blank =>
    obtain ⟨n, hn⟩ := weight fs rfl
    refine ⟨n, Res.bind_eq_ok.mpr ⟨n, hn, ?_⟩⟩
    rw [blank]
    rfl

/-- An entry without text weighs nothing. -/
lemma NoText.textWeight (no : NoText key j) : textWeight key j = 0 := by
  unfold Zones.textWeight
  cases h : Zones.textFields key (.json j) with
  | ok p =>
    obtain ⟨txt, weight⟩ := p
    exact if_pos (no.textFields h)
  | panic p => rfl
  | diverge => rfl

/-- What is read from an entry: its weight, and no record if it has no text. -/
lemma readRecord_text (text : IsTextKey key) (hk : recordTypes key = some t)
    (ok : readRecord origin label dk t (.json j) = .ok slot) :
    WeightReads j ∧ (slot.map Record.weight).getD 0 = textWeight key j ∧ (NoText key j → slot = none) := by
  obtain ⟨mk, reads⟩ := text.readRecord hk origin label dk
  rw [reads] at ok
  obtain ⟨⟨txt, weight⟩, htext, ok⟩ := Res.bind_eq_ok.mp ok
  refine ⟨weightReads_of_textFields htext, ?_⟩
  rw [textWeight, htext]
  dsimp only at ok ⊢
  split at ok
  · rename_i blank
    cases ok
    exact ⟨(if_pos blank).symm, fun _ => rfl⟩
  · rename_i filled
    cases ok
    exact ⟨(if_neg filled).symm, fun no => (filled (no.textFields htext)).elim⟩

/-- An entry without text leaves its slot nil. -/
lemma NoText.readRecord (no : NoText key j) (text : IsTextKey key) (hk : recordTypes key = some t)
    (reads : WeightReads j) : readRecord origin label dk t (.json j) = .ok none := by
  obtain ⟨mk, spec⟩ := text.readRecord hk origin label dk
  obtain ⟨weight, htext⟩ := no.textFields_returns reads
  rw [spec]
  exact Res.bind_eq_ok.mpr ⟨_, htext, rfl⟩

/-! ## One list -/

/-- An entry of the second list is one of the first or has no text. -/
lemma Padding.mem (padding : Padding key js js') (hj : j ∈ js') : j ∈ js ∨ NoText key j := by
  induction padding with
  | nil => cases hj
  | keep j' _ ih =>
    rcases List.mem_cons.mp hj with rfl | hj
    · exact .inl List.mem_cons_self
    · exact (ih hj).imp_left (List.mem_cons_of_mem _)
  | insert no _ ih =>
    rcases List.mem_cons.mp hj with rfl | hj
    · exact .inr no
    · exact ih hj

/-- Two different lists differ in an entry without text. -/
lemma Padding.exists_noText (padding : Padding key js js') (ne : js ≠ js') : ∃ j ∈ js', NoText key j := by
  induction padding with
  | nil => exact (ne rfl).elim
  | keep j _ ih =>
    obtain ⟨j', hj', no⟩ := ih (fun e => ne (e ▸ rfl))
    exact ⟨j', List.mem_cons_of_mem _ hj', no⟩
  | insert no _ _ => exact ⟨_, List.mem_cons_self, no⟩

/-- Entries without text weigh nothing. -/
lemma Padding.weight (padding : Padding key js js') :
    (js'.map (textWeight key)).sum = (js.map (textWeight key)).sum := by
  induction padding with
  | nil => rfl
  | keep j _ ih => rw [List.map_cons, List.sum_cons, List.map_cons, List.sum_cons, ih]
  | insert no _ ih => rw [List.map_cons, List.sum_cons, no.textWeight, zero_add, ih]

/-- The weight of the records that are read is that of the entries. -/
lemma slotWeight_texts (text : IsTextKey key) (hk : recordTypes key = some t) {slots : List (Option Record)}
    (h : (js.map Entry.json).mapM (readRecord origin label dk t) = .ok slots) :
    slotWeight slots = (js.map (textWeight key)).sum := by
  induction js generalizing slots with
  | nil =>
    cases h
    rfl
  | cons j js ih =>
    obtain ⟨slot, slots', hslot, hslots, rfl⟩ := Res.mapM_cons_eq_ok.mp h
    rw [List.map_cons, List.sum_cons, ← ih hslots, ← (readRecord_text text hk hslot).2.1]
    exact List.sum_cons

/-- A list of texts is read if each of its entries is, and if there is no nil slot to be sorted. -/
lemma readSlots_texts_returns (text : IsTextKey key) (hk : recordTypes key = some t) :
    (∃ slots, readSlots ext origin label dk t (.arr js) = .ok slots) ↔
      (∀ j ∈ js, ∃ slot, readRecord origin label dk t (.json j) = .ok slot) ∧
        (0 < (js.map (textWeight key)).sum →
          ∀ j ∈ js, readRecord origin label dk t (.json j) ≠ .ok none) := by
  have entries : readSlots ext origin label dk t (.arr js) =
      (js.map Entry.json).mapM (readRecord origin label dk t) >>= fun slots =>
        if 0 < slotWeight slots then sortSlots ext slots else .ok slots := rfl
  have each : (∃ slots, (js.map Entry.json).mapM (readRecord origin label dk t) = .ok slots) ↔
      ∀ j ∈ js, ∃ slot, readRecord origin label dk t (.json j) = .ok slot := by
    rw [Res.mapM_returns_iff]
    exact List.forall_mem_map
  rw [entries, ← each]
  constructor
  · rintro ⟨slots, h⟩
    obtain ⟨read, hread, h⟩ := Res.bind_eq_ok.mp h
    refine ⟨⟨read, hread⟩, ?_⟩
    intro pos j hj none
    rw [if_pos (by rwa [slotWeight_texts text hk hread]), sortSlots] at h
    split at h
    · rename_i filled
      have mem := Res.mem_mapM hread (List.mem_map_of_mem hj) none
      cases List.all_eq_true.mp filled _ mem
    · cases h
  · rintro ⟨⟨read, hread⟩, filled⟩
    by_cases pos : 0 < slotWeight read
    · have all : read.all Option.isSome = true := by
        refine List.all_eq_true.mpr (fun slot hslot => ?_)
        obtain ⟨e, he, hread'⟩ := Res.mem_of_mapM hread hslot
        obtain ⟨j, hj, rfl⟩ := List.mem_map.mp he
        cases slot with
        | some r => rfl
        | none => exact (filled (by rwa [← slotWeight_texts text hk hread]) j hj hread').elim
      exact ⟨_, Res.bind_eq_ok.mpr ⟨read, hread, (if_pos pos).trans (if_pos all)⟩⟩
    · exact ⟨read, Res.bind_eq_ok.mpr ⟨read, hread, if_neg pos⟩⟩

/-- A list with empty entries put in is read only if it is not sorted. -/
lemma padding_returns_iff (text : IsTextKey key) (hk : recordTypes key = some t)
    (padding : Padding key js js') (ne : js ≠ js')
    (returns : ∃ slots, readSlots ext origin label dk t (.arr js) = .ok slots) :
    (∃ slots, readSlots ext origin label dk t (.arr js') = .ok slots) ↔
      ¬ 0 < (js.map (textWeight key)).sum ∧ ∀ j ∈ js', WeightReads j := by
  rw [readSlots_texts_returns text hk] at returns ⊢
  rw [padding.weight]
  constructor
  · rintro ⟨each, filled⟩
    have reads : ∀ j ∈ js', WeightReads j := by
      intro j hj
      obtain ⟨slot, hslot⟩ := each j hj
      exact (readRecord_text text hk hslot).1
    refine ⟨?_, reads⟩
    intro pos
    obtain ⟨j, hj, no⟩ := padding.exists_noText ne
    exact filled pos j hj (no.readRecord text hk (reads j hj))
  · rintro ⟨unsorted, reads⟩
    refine ⟨?_, fun pos => (unsorted pos).elim⟩
    intro j hj
    rcases padding.mem hj with hj' | no
    · exact returns.1 j hj'
    · exact ⟨none, no.readRecord text hk (reads j hj)⟩

end

/-! ## Data objects -/

section
variable {ext : Externals} {data data' : GoMap String Json} {start : RawZone} {z : Zone} {dk key : String}
variable {fs fs' : List (String × Json)} {js js' : List Json}

/-- Two lists of texts at the same place of both objects. -/
lemma PaddedData.padding (padded : PaddedData data data') (hdv : data.lookup dk = some (.obj fs))
    (hdv' : data'.lookup dk = some (.obj fs')) (hv : (Json.fields fs).lookup key = some (.arr js))
    (hv' : (Json.fields fs').lookup key = some (.arr js')) (ne : js ≠ js') : Padding key js js' := by
  have labels := padded.labels dk
  rw [hdv, hdv'] at labels
  cases labels with
  | some label =>
    cases label with
    | same =>
      rw [hv] at hv'
      cases hv'
      exact (ne rfl).elim
    | fields fields =>
      have field := fields key
      rw [hv, hv'] at field
      cases field with
      | some field =>
        cases field with
        | same => exact (ne rfl).elim
        | list _ padding => exact padding

/-- An accepted object has empty entries in labels that are replaced at most. -/
lemma PaddedData.harmless (padded : PaddedData data data') (empty : start.labels = ∅)
    (ok : setupZoneData ext data start = .ok z) {z' : Zone}
    (ok' : setupZoneData ext data' start = .ok z') : Harmless data data' := by
  intro dk fs fs' key js js' hdv hdv' text hv hv' ne
  have padding := padded.padding hdv hdv' hv hv' ne
  obtain ⟨t, hk⟩ := text.recordTypes
  have returns := setupZoneData_readSlots ok hdv hk hv (by simp)
  have returns' := setupZoneData_readSlots ok' hdv' hk hv' (by simp)
  obtain ⟨unsorted, reads⟩ := (padding_returns_iff text hk padding ne returns).mp returns'
  refine ⟨?_, unsorted, reads⟩
  intro last
  rw [lastKey_eq_of_keys padded.keys] at last
  -- the second pass would come to the nil slot
  obtain ⟨m, _, finished, _⟩ := setupZoneData_finished empty ok' hdv' last
  obtain ⟨_, entries, read, _, hentries, each, _⟩ := finishedLabel_records finished hk hv' (by simp)
  cases hentries
  obtain ⟨j, hj, no⟩ := padding.exists_noText ne
  have all := Res.mapM_eq_ok.mpr (List.forall₂_map_right_iff.mpr each)
  have mem := Res.mem_mapM all (List.mem_map_of_mem hj) (no.readRecord text hk (reads j hj))
  obtain ⟨r, _, none⟩ := List.mem_map.mp mem
  cases none

/-- The labels of an object whose empty entries do no harm can be read. -/
lemma PaddedData.reads (padded : PaddedData data data') (harmless : Harmless data data') :
    ReadsAlso ext start data data' := by
  intro dk dv dv' r hdv hdv' hr
  have labels := padded.labels dk
  rw [hdv, hdv'] at labels
  cases labels with
  | some label =>
    cases label with
    | same => exact ⟨r.1, hr⟩
    | @fields fs fs' fields =>
      have each := labelOf_returns.mp ⟨r, hr⟩
      obtain ⟨⟨l', b⟩, hr'⟩ : ∃ r', labelOf ext start.origin start.options dk (.obj fs') = .ok r' := by
        refine labelOf_returns.mpr (fun key v' hv' => ?_)
        obtain ⟨v, hv, field⟩ := rel_left (fields key) hv'
        cases field with
        | same => exact each key _ hv
        | @list js js' text padding =>
          by_cases same : js = js'
          · exact same ▸ each key _ hv
          · obtain ⟨t, hk⟩ := text.recordTypes
            obtain ⟨_, unsorted, reads⟩ := harmless dk fs fs' key js js' hdv hdv' text hv hv' same
            rw [readChange_returns hk (by simp)]
            have returns := (readChange_returns hk (by simp)).mp (each key _ hv)
            exact (padding_returns_iff text hk padding same returns).mpr ⟨unsorted, reads⟩
      have closest : (Json.fields fs).lookup "closest" = (Json.fields fs').lookup "closest" := by
        refine eq_of_rel (fields "closest") (fun v v' field => ?_)
        cases field with
        | same => rfl
        | list text _ => exact absurd text (by unfold IsTextKey; decide)
      rw [labelOf_closest hr hr' closest]
      exact ⟨l', hr'⟩

/-- The labels that count are those without empty entries. -/
lemma PaddedData.finishes (padded : PaddedData data data') (harmless : Harmless data data') :
    FinishesAlso ext start data data' := by
  intro dk dv dv' hdv hdv' last
  have labels := padded.labels dk
  rw [hdv, hdv'] at labels
  cases labels with
  | some label =>
    cases label with
    | same => exact .refl SameLabel.refl _
    | @fields fs fs' fields =>
      have agree : Res.Agree SameRead (labelOf ext start.origin start.options dk (.obj fs))
          (labelOf ext start.origin start.options dk (.obj fs')) := by
        apply labelOf_agree_of_fields
        intro key
        have present := GoMap.mem_iff_of_rel (fields key)
        refine rel_of_isSome (AList.lookup_isSome.trans (present.trans AList.lookup_isSome.symm)) ?_
        intro v v' hv hv'
        obtain ⟨w, hw, field⟩ := rel_right (fields key) hv
        cases hv'.symm.trans hw
        cases field with
        | same => exact .refl (fun _ => rfl) _
        | @list js js' text _ =>
          have same : js = js' := by
            by_contra ne
            exact (harmless dk fs fs' key js js' hdv hdv' text hv hv' ne).1 last
          rw [same]
          exact .refl (fun _ => rfl) _
      exact agree.bind (fun r r' same => finishLabel_agree same.1 _)

/-- Empty entries put into the lists of an accepted data object leave it accepted, with the same zone,
    exactly if they are put where neither the sort nor the second pass comes. -/
theorem empty_texts_skipped_iff (empty : start.labels = ∅) (ok : setupZoneData ext data start = .ok z)
    (padded : PaddedData data data') :
    (∃ z', setupZoneData ext data' start = .ok z' ∧ SameZone z z' ∧ z.logging = z'.logging) ↔
      Harmless data data' := by
  constructor
  · rintro ⟨z', ok', _⟩
    exact padded.harmless empty ok ok'
  · intro harmless
    exact setupZoneData_same empty padded.keys (padded.reads harmless) (padded.finishes harmless) ok

end

/-- A data object with one list of texts, and another label under the key `other`. -/
def smallTexts (other : String) (texts : List Json) : GoMap String Json :=
  Json.fields [(other, .obj [("a", .arr [.arr [.str "192.0.2.1"]])]), ("WWW", .obj [("txt", .arr texts)])]

/-- The labels of the data object of the example. -/
lemma lookup_smallTexts (other : String) (texts : List Json) (dk : String) :
    (smallTexts other texts).lookup dk = if dk = "WWW" then some (.obj [("txt", .arr texts)])
      else if dk = other then some (.obj [("a", .arr [.arr [.str "192.0.2.1"]])]) else none := by
  show ((AList.insert other _ ∅ : GoMap String Json).insert "WWW" _).lookup dk = _
  rw [GoMap.lookup_insert_eq_ite, GoMap.lookup_insert_eq_ite]
  rfl

/-- Padding in the one label is padding of the whole. -/
lemma smallTexts_padded {other : String} {texts texts' : List Json}
    (keys : (smallTexts other texts).keys = (smallTexts other texts').keys)
    (padding : Padding "txt" texts texts') :
    PaddedData (smallTexts other texts) (smallTexts other texts') := by
  refine ⟨keys, ?_⟩
  intro dk
  rw [lookup_smallTexts, lookup_smallTexts]
  split
  · refine .some (.fields ?_)
    intro key
    show Option.Rel _ ((AList.insert "txt" _ ∅ : GoMap String Json).lookup key)
      ((AList.insert "txt" _ ∅ : GoMap String Json).lookup key)
    rw [GoMap.lookup_insert_eq_ite, GoMap.lookup_insert_eq_ite]
    split
    · rename_i here
      subst here
      exact .some (.list (.inl rfl) padding)
    · exact .none
  · split
    · exact .some (.same _)
    · exact .none

/-- An empty text in a label that is replaced by another spelling of its name does no harm. -/
theorem empty_text_replaced : ∃ z z',
    setupZoneData smallExternals (smallTexts "www" [.str "text"]) (newZone "example.com") = .ok z ∧
      setupZoneData smallExternals (smallTexts "www" [.str "", .str "text"]) (newZone "example.com") =
        .ok z' ∧ SameZone z z' := by
  obtain ⟨z, hz⟩ : ∃ z, setupZoneData smallExternals (smallTexts "www" [.str "text"])
    (newZone "example.com") = .ok z := ⟨_, rfl⟩
  have padded : PaddedData (smallTexts "www" [.str "text"]) (smallTexts "www" [.str "", .str "text"]) :=
    smallTexts_padded rfl (.insert .text (.keep _ .nil))
  have harmless : Harmless (smallTexts "www" [.str "text"]) (smallTexts "www" [.str "", .str "text"]) := by
    intro dk fs fs' key js js' hdv hdv' text hv hv' ne
    rw [lookup_smallTexts] at hdv hdv'
    split at hdv
    · rename_i here
      subst here
      cases hdv
      cases hdv'
      refine ⟨by decide +kernel, ?_, ?_⟩
      · rcases text with rfl | rfl
        · cases hv
          decide +kernel
        · cases hv
      · rcases text with rfl | rfl
        · cases hv'
          rintro j hj fs rfl
          simp at hj
        · cases hv'
    · rename_i elsewhere
      rw [if_neg elsewhere] at hdv'
      split at hdv
      · rename_i here
        rw [if_pos here] at hdv'
        cases hdv
        cases hdv'
        cases hv.symm.trans hv'
        exact (ne rfl).elim
      · cases hdv
  obtain ⟨z', hz', same, _⟩ := (empty_texts_skipped_iff rfl hz padded).mpr harmless
  exact ⟨z, z', hz, hz', same⟩

/-- An empty text in a label that counts makes the loader dereference a nil record. -/
theorem empty_text_rejected : ∃ z,
    setupZoneData smallExternals (smallTexts "mail" [.str "text"]) (newZone "example.com") = .ok z ∧
      PaddedData (smallTexts "mail" [.str "text"]) (smallTexts "mail" [.str "text", .str ""]) ∧
      setupZoneData smallExternals (smallTexts "mail" [.str "text", .str ""]) (newZone "example.com") =
        .panic .nilDeref :=
  ⟨_, rfl, smallTexts_padded rfl (.keep _ (.insert .text .nil)), rfl⟩

end GeoDNS.Zones
