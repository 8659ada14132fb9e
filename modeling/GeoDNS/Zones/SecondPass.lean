import GeoDNS.Zones.Changes
import GeoDNS.Zones.Serial
import GeoDNS.Zones.Settings

/-!
# The labels of a zone that has been read

What the second pass of `setupZoneData` leaves behind, label by label (`Finished`): a label that was read
has its weights and TTLs set, and a name above a label that was read has an empty label of its own unless
it was read as well. The names that the pass adds are suffixes of names in lower case, so `AddLabel` puts
them under the names that were looked for.

`readZoneFile_setup` says which data object of a zone file the labels come from.
-/

namespace GeoDNS.Zones
open GeoDNS.Lib GeoDNS.Dns GeoDNS.Targeting

/-- `z'` is `z` with empty labels for those names of `names` that had none. -/
structure Extended (names : Set String) (z z' : Zone) : Prop where
  rest : z' = { z with labels := z'.labels }
  old : ∀ {k l}, z.labels.lookup k = some l → z'.labels.lookup k = some l
  added : ∀ {k}, k ∉ z.labels → k ∈ names → z'.labels.lookup k = some (newLabel z.options k)
  absent : ∀ {k}, k ∉ z.labels → k ∉ names → z'.labels.lookup k = none

/-- Add a label that is missing. -/
def addMissing (z : Zone) (sub : String) : Zone :=
  if sub ∈ z.labels then z else z.addLabel sub

section
variable {z z' z'' : Zone} {names names' : Set String}

/-- A zone is itself with nothing added. -/
lemma Extended.refl (z : Zone) : Extended ∅ z z where
  rest := rfl
  old := id
  added := fun _ h => h.elim
  absent := fun h _ => AList.lookup_eq_none.mpr h

/-- The names are those from before and those that are added. -/
lemma Extended.mem_iff (ext : Extended names z z') {k : String} :
    k ∈ z'.labels ↔ k ∈ z.labels ∨ k ∈ names := by
  by_cases old : k ∈ z.labels
  · obtain ⟨l, hl⟩ := Option.isSome_iff_exists.mp (AList.lookup_isSome.mpr old)
    exact iff_of_true (AList.lookup_isSome.mp (by simp [ext.old hl])) (.inl old)
  · by_cases new : k ∈ names
    · exact iff_of_true (AList.lookup_isSome.mp (by simp [ext.added old new])) (.inr new)
    · exact iff_of_false (AList.lookup_eq_none.mp (ext.absent old new)) (by simp [old, new])

/-- What is added one after the other is added together. -/
lemma Extended.trans (h1 : Extended names z z') (h2 : Extended names' z' z'') :
    Extended (names ∪ names') z z'' where
  rest := by
    have e := h2.rest
    rw [h1.rest] at e
    exact e
  old := fun h => h2.old (h1.old h)
  added := by
    intro k hk hnames
    by_cases new : k ∈ names
    · exact h2.old (h1.added hk new)
    · have options : z'.options = z.options := by rw [h1.rest]
      have missing : k ∉ z'.labels := by simp [h1.mem_iff, hk, new]
      rw [h2.added missing (hnames.resolve_left new), options]
  absent := by
    intro k hk hnames
    have missing : k ∉ z'.labels := by
      rw [h1.mem_iff]
      rintro (h | h)
      · exact hk h
      · exact hnames (.inl h)
    exact h2.absent missing (fun h => hnames (.inr h))

/-- A loop that extends the zone at every turn. -/
lemma Extended.foldl {α : Type} {f : Zone → α → Zone} {names : α → Set String} {l : List α}
    (step : ∀ z, ∀ a ∈ l, Extended (names a) z (f z a)) (z : Zone) :
    Extended {s | ∃ a ∈ l, s ∈ names a} z (l.foldl f z) := by
  induction l generalizing z with
  | nil =>
    have none : {s | ∃ a ∈ ([] : List α), s ∈ names a} = ∅ := by simp
    rw [none]
    exact .refl z
  | cons a l ih =>
    have all : {s | ∃ b ∈ a :: l, s ∈ names b} = names a ∪ {s | ∃ b ∈ l, s ∈ names b} := by
      ext s
      simp
    rw [all]
    have first := step z a List.mem_cons_self
    exact first.trans (ih (fun z b hb => step z b (List.mem_cons_of_mem _ hb)) (f z a))

/-- `AddLabel` puts a name in lower case where it was looked for. -/
lemma addMissing_extended (z : Zone) {sub : String} (lower : toLower sub = sub) :
    Extended {sub} z (addMissing z sub) := by
  unfold addMissing
  by_cases h : sub ∈ z.labels
  · rw [if_pos h]
    refine ⟨rfl, id, ?_, fun hk _ => AList.lookup_eq_none.mpr hk⟩
    rintro k hk rfl
    exact (hk h).elim
  · rw [if_neg h]
    have lookup : ∀ k, (z.addLabel sub).labels.lookup k =
        if k = sub then some (newLabel z.options sub) else z.labels.lookup k := by
      intro k
      rw [ZoneOf.addLabel, lower, GoMap.lookup_insert_eq_ite]
    refine ⟨rfl, ?_, ?_, ?_⟩
    · intro k l hl
      rw [lookup, if_neg, hl]
      rintro rfl
      exact h (AList.lookup_isSome.mp (by simp [hl]))
    · rintro k _ rfl
      rw [lookup, if_pos rfl]
    · intro k hk hne
      have ne : k ≠ sub := hne
      rw [lookup, if_neg ne]
      exact AList.lookup_eq_none.mpr hk

/-- The labels above a label are those that are behind a dot. -/
lemma addSubLabels_eq (z : Zone) (k : String) :
    addSubLabels z k = (tailTexts k '.').foldl addMissing z := by
  unfold addSubLabels
  by_cases dot : contains k '.' = true
  · rw [if_pos dot, tailTexts, List.foldl_map]
    rfl
  · -- without a dot there is nothing behind one
    rw [if_neg dot, tailTexts_eq_nil dot]
    rfl

/-- The labels above a label are added to the zone. -/
lemma addSubLabels_extended (z : Zone) {k : String} (lower : toLower k = k) :
    Extended {s | Behind '.' k s} z (addSubLabels z k) := by
  rw [addSubLabels_eq]
  have names : {s | Behind '.' k s} = {s | ∃ t ∈ tailTexts k '.', s ∈ ({t} : Set String)} := by
    ext s
    simp [mem_tailTexts]
  rw [names]
  apply Extended.foldl
  intro z t ht
  exact addMissing_extended z (toLower_of_suffix (mem_tailTexts.mp ht).suffix lower)

end

/-! ## The second pass -/

/-- The zone `z` is what the second pass makes of `raw`. -/
structure Finished (raw : RawZone) (z : Zone) : Prop where
  rest : z = { raw with labels := z.labels }
  read : ∀ {k l}, raw.labels.lookup k = some l →
    ∃ l', z.labels.lookup k = some l' ∧ finishLabel raw.options l = .ok l'
  added : ∀ {k}, k ∉ raw.labels → (∃ k' ∈ raw.labels, Behind '.' k' k) →
    z.labels.lookup k = some (newLabel raw.options k)
  absent : ∀ {k}, k ∉ raw.labels → (¬ ∃ k' ∈ raw.labels, Behind '.' k' k) → z.labels.lookup k = none

section
variable {ext : Externals} {raw : RawZone} {z z' : Zone}

/-- A label of the zone was read, or stands above one that was. -/
lemma Finished.mem_iff (fin : Finished raw z) {k : String} :
    k ∈ z.labels ↔ k ∈ raw.labels ∨ ∃ k' ∈ raw.labels, Behind '.' k' k := by
  by_cases old : k ∈ raw.labels
  · obtain ⟨l, hl⟩ := Option.isSome_iff_exists.mp (AList.lookup_isSome.mpr old)
    obtain ⟨l', hl', _⟩ := fin.read hl
    exact iff_of_true (AList.lookup_isSome.mp (by simp [hl'])) (.inl old)
  · by_cases above : ∃ k' ∈ raw.labels, Behind '.' k' k
    · exact iff_of_true (AList.lookup_isSome.mp (by simp [fin.added old above])) (.inr above)
    · exact iff_of_false (AList.lookup_eq_none.mp (fin.absent old above)) (by simp [old, above])

/-- The labels after the traversal, before the missing ones are added. -/
lemma finished_of_extended {labels : GoMap String Label}
    (hl : raw.labels.traverse (fun _ l => finishLabel raw.options l) = .ok labels)
    (extended : Extended {s | ∃ k ∈ raw.labels, Behind '.' k s} { raw with labels := labels } z) :
    Finished raw z := by
  have keys : ∀ {k}, k ∈ labels ↔ k ∈ raw.labels := by
    intro k
    rcases GoMap.lookup_traverse hl k with ⟨hn, hn'⟩ | ⟨l, l', h, h', _⟩
    · exact iff_of_false (AList.lookup_eq_none.mp hn') (AList.lookup_eq_none.mp hn)
    · exact iff_of_true (AList.lookup_isSome.mp (by simp [h'])) (AList.lookup_isSome.mp (by simp [h]))
  refine ⟨extended.rest, ?_, ?_, ?_⟩
  · intro k l h
    rcases GoMap.lookup_traverse hl k with ⟨hn, _⟩ | ⟨l0, l', h0, h', hfin⟩
    · rw [hn] at h
      cases h
    · rw [h0] at h
      cases h
      exact ⟨l', extended.old h', hfin⟩
  · intro k hk above
    exact extended.added (fun h => hk (keys.mp h)) above
  · intro k hk above
    exact extended.absent (fun h => hk (keys.mp h)) above

/-- What the second pass returns is the finished zone. -/
theorem finishLabels_finished (lower : ∀ k ∈ raw.labels, toLower k = k)
    (ok : finishLabels raw = .ok z) : Finished raw z := by
  obtain ⟨labels, hl, ok⟩ := Res.bind_eq_ok.mp ok
  cases ok
  apply finished_of_extended hl
  apply Extended.foldl
  intro z k hk
  exact addSubLabels_extended z (lower k hk)

/-- The second pass returns if it does so for every label. -/
lemma traverse_finishLabel_returns :
    (∃ labels, raw.labels.traverse (fun _ l => finishLabel raw.options l) = .ok labels) ↔
      ∀ k l, raw.labels.lookup k = some l → ∃ l', finishLabel raw.options l = .ok l' := by
  refine Iff.trans ?_ (GoMap.traverseEntries_returns raw.labels.nodupKeys)
  constructor
  · rintro ⟨labels, h⟩
    obtain ⟨es, hes, _⟩ := Res.bind_eq_ok.mp h
    exact ⟨es, hes⟩
  · rintro ⟨es, hes⟩
    exact ⟨_, Res.bind_eq_ok.mpr ⟨es, hes, rfl⟩⟩

/-- `addSOA` changes the label of the zone itself, and no other. -/
lemma addSOA_lookup (ok : addSOA ext z = .ok z') :
    z' = { z with labels := z'.labels } ∧ ∃ rr, ∀ k, z'.labels.lookup k =
      if k = "" then
        some (LabelOf.setRecords ((z.labels.lookup "").getD (newLabel z.options "")) typeSOA
          [{ rr := rr }])
      else z.labels.lookup k := by
  unfold addSOA at ok
  obtain ⟨ns, _, ok⟩ := Res.bind_eq_ok.mp ok
  split at ok
  · cases ok
  · cases ok
    exact ⟨rfl, _, fun k => GoMap.lookup_insert_eq_ite _ _ k _⟩

/-- The three steps of `setupZoneData`. -/
lemma setupZoneData_eq_ok {data : GoMap String Json} {start : RawZone} (empty : start.labels = ∅)
    (ok : setupZoneData ext data start = .ok z') :
    ∃ raw z, ReadFrom ext data start raw ∧ Finished raw z ∧ addSOA ext z = .ok z' := by
  obtain ⟨raw, hraw, ok⟩ := Res.bind_eq_ok.mp ok
  obtain ⟨z, hz, ok⟩ := Res.bind_eq_ok.mp ok
  have reads := readLabels_readFrom empty hraw
  exact ⟨raw, z, reads, finishLabels_finished (fun _ h => reads.toLower h) hz, ok⟩

/-- Setting up the labels leaves the name and the options of a zone alone. -/
lemma setupZoneData_options {data : GoMap String Json} {start : RawZone} (empty : start.labels = ∅)
    (ok : setupZoneData ext data start = .ok z) : z.origin = start.origin ∧ z.options = start.options := by
  obtain ⟨raw, z1, reads, fin, hsoa⟩ := setupZoneData_eq_ok empty ok
  rw [(addSOA_lookup hsoa).1, fin.rest, reads.rest]
  exact ⟨rfl, rfl⟩

/-- The labels of a zone: the zone itself, the labels of its data object, and the names above these. -/
theorem mem_setupZoneData {data : GoMap String Json} {start : RawZone} (empty : start.labels = ∅)
    (ok : setupZoneData ext data start = .ok z') {s : String} :
    s ∈ z'.labels ↔ s = "" ∨ ∃ dk ∈ data, s = toLower dk ∨ Behind '.' (toLower dk) s := by
  obtain ⟨raw, z, reads, fin, ok⟩ := setupZoneData_eq_ok empty ok
  obtain ⟨_, rr, lookup⟩ := addSOA_lookup ok
  have names : ∀ {k}, k ∈ raw.labels ↔ ∃ dk ∈ data, k = toLower dk := by
    intro k
    constructor
    · intro h
      obtain ⟨l, hl⟩ := Option.isSome_iff_exists.mp (AList.lookup_isSome.mpr h)
      obtain ⟨dk, dv, _, hdv, rfl, _⟩ := reads.labels hl
      exact ⟨dk, AList.lookup_isSome.mp (by simp [hdv]), rfl⟩
    · rintro ⟨dk, hdk, rfl⟩
      exact reads.complete hdk
  rw [← AList.lookup_isSome, lookup]
  by_cases hs : s = ""
  · simp [hs]
  · rw [if_neg hs, AList.lookup_isSome, fin.mem_iff, names]
    constructor
    · rintro (⟨dk, hdk, e⟩ | ⟨k, hk, behind⟩)
      · exact .inr ⟨dk, hdk, .inl e⟩
      · obtain ⟨dk, hdk, rfl⟩ := names.mp hk
        exact .inr ⟨dk, hdk, .inr behind⟩
    · rintro (e | ⟨dk, hdk, e | behind⟩)
      · exact (hs e).elim
      · exact .inl ⟨dk, hdk, e⟩
      · exact .inr ⟨_, names.mpr ⟨dk, hdk, rfl⟩, behind⟩

end

/-! ## Zone files -/

/-- The labels that a document describes: its field `data`. -/
def dataOf : Json → GoMap String Json
  | .obj l =>
    match (Json.fields l).lookup "data" with
    | some (.obj d) => Json.fields d
    | _ => ∅
  | _ => ∅

section
variable {ext : Externals} {geo : Option Provider} {name fileName : String} {mtime : Int} {doc : Json}

/-- The data object that the options leave is that of the document, whatever the document is. -/
lemma readOptions_dataOf {objmap data : GoMap String Json} {z raw : RawZone}
    (htop : topLevel fileName doc = .ok objmap)
    (h : readOptions objmap.entries z ∅ = .ok (.ok (raw, data))) : data = dataOf doc := by
  obtain ⟨_, hdata⟩ := readOptions_data objmap.nodupKeys h
  cases doc with
  | obj l =>
    cases htop
    rcases hdata with ⟨hn, rfl⟩ | ⟨d, hd, rfl⟩
    · have missing : (Json.fields l).lookup "data" = none := hn
      simp only [dataOf, missing]
    · have found : (Json.fields l).lookup "data" = some (.obj d) := hd
      simp only [dataOf, found]
  | null =>
    cases htop
    rcases hdata with ⟨_, rfl⟩ | ⟨d, hd, _⟩
    · rfl
    · cases hd
  | _ => cases htop

/-- A zone file that is accepted: its options are read into a new zone of this name, then its labels are
    set up in it; then the places of its addresses may be looked up. -/
theorem readZoneFile_options {z : Zone}
    (h : readZoneFile ext geo name fileName mtime (.ok doc) = .ok z) :
    ∃ objmap start raw z0, topLevel fileName doc = .ok objmap ∧
      start.labels = ∅ ∧ start.origin = name ∧
      readOptions objmap.entries start ∅ = .ok (.ok (raw, dataOf doc)) ∧
      setupZoneData ext (dataOf doc) raw = .ok z0 ∧ (z = z0 ∨ ∃ g, z = z0.setLocations g) := by
  have h := readZoneFile_eq_ok.mp h
  unfold readZoneDoc at h
  dsimp only [Except.bind] at h
  cases htop : topLevel fileName doc with
  | error err =>
    rw [htop] at h
    cases h
  | ok objmap =>
    rw [htop] at h
    obtain ⟨r, hr, h⟩ := Res.bind_eq_ok.mp h
    cases r with
    | error err => cases h
    | ok r =>
      obtain ⟨raw, data⟩ := r
      obtain ⟨z0, hz0, h⟩ := Res.bind_eq_ok.mp h
      have same := readOptions_dataOf htop hr
      rw [same] at hr hz0
      refine ⟨objmap, _, raw, z0, rfl, ?_, ?_, hr, hz0, ?_⟩
      · rfl
      · rfl
      cases geo with
      | none =>
        cases h
        exact .inl rfl
      | some g =>
        cases h
        split
        · exact .inr ⟨g, rfl⟩
        · exact .inl rfl

/-- The zone that the labels of an accepted file are set up in. -/
theorem readZoneFile_setup {z : Zone}
    (h : readZoneFile ext geo name fileName mtime (.ok doc) = .ok z) :
    ∃ raw z0, raw.labels = ∅ ∧ raw.origin = name ∧ setupZoneData ext (dataOf doc) raw = .ok z0 ∧
      (z = z0 ∨ ∃ g, z = z0.setLocations g) := by
  obtain ⟨objmap, start, raw, z0, _, empty, origin, hr, hz0, located⟩ := readZoneFile_options h
  obtain ⟨⟨labels, same⟩, _⟩ := readOptions_data objmap.nodupKeys hr
  exact ⟨raw, z0, labels.trans empty, same.trans origin, hz0, located⟩

end
end GeoDNS.Zones
