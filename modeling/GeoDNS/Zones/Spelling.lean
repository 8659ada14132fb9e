import GeoDNS.Zones.AliasChain
import GeoDNS.Zones.Matches
import GeoDNS.Zones.Representation

/-!
# The spelling of names

`AddLabel` files a label under its name in lower case, and `getQuestionName` turns the name of a query into
lower case, but the target of an alias is kept as the file spells it, and `FindLabels` looks it up as it is.
No label of a zone has a capital letter in its name, so an alias with one leads nowhere.

Two data objects that differ in letter case only (`Respelled`) therefore make zones with the same labels,
the same kinds of records and the same aliases up to letter case (`Twins`). The lookups in both go side by
side as long as the aliases are spelled alike (`Together`). They find the same if, where the spellings
part, both aliases lead to nothing (`SpelledAlike`, `Twins.follows`). If the same one of the two zones has
the capital letters everywhere, then this is also necessary (`Twins.fewer`): what it does not find makes its
matches fewer, and nothing makes up for them.
-/

namespace GeoDNS.Zones
open GeoDNS.Lib GeoDNS.Dns Relation

/-- Two values of the field `alias` that differ in the letter case of their targets only. -/
inductive RespelledAlias : Json → Json → Prop
  | same (j) : RespelledAlias j j
  | one {a b} : asciiLower a = asciiLower b → RespelledAlias (.str a) (.str b)
  | many {as bs : List String} : as.map asciiLower = bs.map asciiLower →
      RespelledAlias (.arr (as.map .str)) (.arr (bs.map .str))

/-- Two values of a data object that differ in the letter case of their aliases only. -/
inductive RespelledLabel : Json → Json → Prop
  | same (j) : RespelledLabel j j
  | fields {fs fs'} :
      (∀ key, key ≠ "alias" → (Json.fields fs).lookup key = (Json.fields fs').lookup key) →
      Option.Rel RespelledAlias ((Json.fields fs).lookup "alias") ((Json.fields fs').lookup "alias") →
      RespelledLabel (.obj fs) (.obj fs')

/-- Two data objects that differ in the letter case of their keys and aliases only. -/
structure Respelled (data data' : GoMap String Json) : Prop where
  left : ∀ {k v}, data.lookup k = some v →
    ∃ k' v', data'.lookup k' = some v' ∧ asciiLower k = asciiLower k' ∧ RespelledLabel v v'
  right : ∀ {k' v'}, data'.lookup k' = some v' →
    ∃ k v, data.lookup k = some v ∧ asciiLower k = asciiLower k' ∧ RespelledLabel v v'

/-- There are records of this type. -/
def HasRecords (l : Label) (t : RRType) : Prop :=
  ∃ r rs, l.recordsOf t = some (r :: rs)

/-- Two zones that differ in the letter case of their aliases only, as far as lookups are concerned. -/
structure Twins (ext : Externals) (z z' : Zone) : Prop where
  loaded : Loaded ext z ∧ Loaded ext z'
  mem : ∀ {k}, k ∈ z.labels ↔ k ∈ z'.labels
  lower : ∀ {k}, k ∈ z.labels → asciiLower k = k
  names : ∀ {k l}, z.labels.lookup k = some l → l.label = k
  names' : ∀ {k l}, z'.labels.lookup k = some l → l.label = k
  records : ∀ {k l l' t}, z.labels.lookup k = some l → z'.labels.lookup k = some l' → t ≠ typeMF →
    (HasRecords l t ↔ HasRecords l' t)
  aliases : ∀ {k l l'}, z.labels.lookup k = some l → z'.labels.lookup k = some l' →
    (aliasEntry l).map (Except.map asciiLower) = (aliasEntry l').map (Except.map asciiLower)

/-- The names of the labels that were found, with the types. -/
def matchNames (r : List LabelMatch) : List (Option String × RRType) :=
  r.map (fun m => (m.label.map LabelOf.label, m.type))

/-- The lookup of this name finds nothing: it is no label, and the labels of its targets have no records
    of the types that are looked for and no aliases but such that find nothing either. -/
inductive FindsNothing (z : Zone) (targets : List String) (q : RRType) : String → Prop
  | intro {b} : b ∉ z.labels →
      (∀ t ∈ targets, ∀ l, z.labels.lookup (targetName b t) = some l →
        q ≠ typeANY ∧ ¬ HasRecords l typeCNAME ∧ (q ≠ typeMF → ¬ HasRecords l q)) →
      (∀ t ∈ targets, ∀ p, aliasOf z b t ≠ some (.error p)) →
      (∀ t ∈ targets, ∀ c, aliasOf z b t = some (.ok c) → FindsNothing z targets q c) →
      FindsNothing z targets q b

/-- Some target makes `a` an alias of `b` in both zones. -/
def Together (z z' : Zone) (targets : List String) (a b : String) : Prop :=
  ∃ t ∈ targets, aliasOf z a t = some (.ok b) ∧ aliasOf z' a t = some (.ok b)

/-- Wherever the aliases of the two zones part, both lead to nothing. -/
def SpelledAlike (z z' : Zone) (targets : List String) (q : RRType) (s : String) : Prop :=
  ∀ a, ReflTransGen (Together z z' targets) s a → ∀ t ∈ targets, ∀ b b',
    aliasOf z a t = some (.ok b) → aliasOf z' a t = some (.ok b') → b ≠ b' →
    FindsNothing z targets q b ∧ FindsNothing z' targets q b'

/-- Wherever the aliases of the two zones part, the first zone has a capital letter. -/
def OneSided (z z' : Zone) (targets : List String) (s : String) : Prop :=
  ∀ a, ReflTransGen (Together z z' targets) s a → ∀ t ∈ targets, ∀ b b',
    aliasOf z a t = some (.ok b) → aliasOf z' a t = some (.ok b') → b ≠ b' → asciiLower b ≠ b

/-! ## Data objects -/

/-- Two elements of a list of records that are the same, or texts that differ in letter case only. -/
def RespelledEntry (e e' : Entry) : Prop :=
  e = e' ∨ ∃ a b, e = .json (.str a) ∧ e' = .json (.str b) ∧ asciiLower a = asciiLower b

/-- The name that the first of these elements points to. -/
def firstAlias : List Entry → Except Panic String
  | [] => .error .index
  | .json (.str b) :: _ => .ok b
  | _ => .error .typeAssert

section
variable {ext : Externals} {data data' : GoMap String Json} {start : RawZone} {z z' : Zone}
variable {k dk : String} {t : RRType} {l l' : Label} {entries entries' : List Entry} {j j' : Json}

/-- Respelling aliases is symmetric. -/
lemma RespelledAlias.symm (h : RespelledAlias j j') : RespelledAlias j' j := by
  cases h with
  | same => exact .same _
  | one e => exact .one e.symm
  | many e => exact .many e.symm

/-- Respelling labels is symmetric. -/
lemma RespelledLabel.symm (h : RespelledLabel j j') : RespelledLabel j' j := by
  cases h with
  | same => exact .same _
  | @fields fs fs' others aliases =>
    refine .fields (fun key ne => (others key ne).symm) ?_
    generalize (Json.fields fs).lookup "alias" = x at aliases ⊢
    generalize (Json.fields fs').lookup "alias" = y at aliases ⊢
    cases aliases with
    | some h => exact .some h.symm
    | none => exact .none

/-- Respelling data objects is symmetric. -/
lemma Respelled.symm (h : Respelled data data') : Respelled data' data where
  left := by
    intro k' v' hv'
    obtain ⟨k, v, hv, e, label⟩ := h.right hv'
    exact ⟨k, v, hv, e.symm, label.symm⟩
  right := by
    intro k v hv
    obtain ⟨k', v', hv', e, label⟩ := h.left hv
    exact ⟨k', v', hv', e.symm, label.symm⟩

/-- Data objects that differ entry by entry. -/
lemma respelled_of_entries (h : List.Forall₂ (fun e e' => asciiLower e.1 = asciiLower e'.1 ∧
      RespelledLabel e.2 e'.2) data.entries data'.entries) : Respelled data data' where
  left := by
    intro k v hv
    obtain ⟨i, hi, e⟩ := List.mem_iff_getElem.mp (GoMap.mem_entries_iff.mpr hv)
    have hi' : i < data'.entries.length := h.length_eq ▸ hi
    have rel := h.get hi hi'
    rw [List.get_eq_getElem, e] at rel
    exact ⟨_, _, GoMap.mem_entries_iff.mp (List.getElem_mem hi'), rel.1, rel.2⟩
  right := by
    intro k' v' hv'
    obtain ⟨i, hi', e⟩ := List.mem_iff_getElem.mp (GoMap.mem_entries_iff.mpr hv')
    have hi : i < data.entries.length := h.length_eq ▸ hi'
    have rel := h.get hi hi'
    rw [List.get_eq_getElem, List.get_eq_getElem, e] at rel
    exact ⟨_, _, GoMap.mem_entries_iff.mp (List.getElem_mem hi), rel.1, rel.2⟩

/-- A respelled alias is null only if the alias is. -/
lemma RespelledAlias.ne_null (h : RespelledAlias j j') (ne : j ≠ .null) : j' ≠ .null := by
  cases h with
  | same => exact ne
  | one _ => simp
  | many _ => simp

/-- The entries of a respelled alias differ one by one. -/
lemma RespelledAlias.recordEntries (h : RespelledAlias j j') (he : Zones.recordEntries j = .ok entries) :
    ∃ entries', Zones.recordEntries j' = .ok entries' ∧ List.Forall₂ RespelledEntry entries entries' := by
  cases h with
  | same => exact ⟨entries, he, List.forall₂_same.mpr (fun _ _ => .inl rfl)⟩
  | @one a b e =>
    cases he
    exact ⟨_, rfl, .cons (.inr ⟨a, b, rfl, rfl, e⟩) .nil⟩
  | @many as bs e =>
    cases he
    refine ⟨_, rfl, ?_⟩
    rw [List.map_map, List.map_map, List.forall₂_map_left_iff, List.forall₂_map_right_iff]
    have each : List.Forall₂ Eq (as.map asciiLower) (bs.map asciiLower) := by
      rw [List.forall₂_eq_eq_eq]
      exact e
    rw [List.forall₂_map_left_iff, List.forall₂_map_right_iff] at each
    exact each.imp (fun a b e => .inr ⟨a, b, rfl, rfl, e⟩)

/-- The lists of respelled data objects correspond, element by element. -/
lemma Respelled.lists (respelled : Respelled data data') (h : Lists data k t dk entries) :
    ∃ dk' entries', Lists data' k t dk' entries' ∧ List.Forall₂ RespelledEntry entries entries' := by
  obtain ⟨hk, fs, rType, rdata, hdv, ht, hrdata, ne, he⟩ := h
  obtain ⟨dk', v', hdv', e, label⟩ := respelled.left hdv
  have hk' : toLower dk' = k := (toLower_congr e).symm.trans hk
  cases label with
  | same =>
    exact ⟨dk', entries, ⟨hk', fs, rType, rdata, hdv', ht, hrdata, ne, he⟩,
      List.forall₂_same.mpr (fun _ _ => .inl rfl)⟩
  | @fields _ fs' others aliases =>
    by_cases key : rType = "alias"
    · subst key
      rw [hrdata] at aliases
      cases hrdata' : (Json.fields fs').lookup "alias" with
      | none =>
        rw [hrdata'] at aliases
        cases aliases
      | some rdata' =>
        rw [hrdata'] at aliases
        cases aliases with
        | some aliases =>
          obtain ⟨entries', he', each⟩ := aliases.recordEntries he
          exact ⟨dk', entries', ⟨hk', fs', "alias", rdata', hdv', ht, hrdata', aliases.ne_null ne, he'⟩,
            each⟩
    · refine ⟨dk', entries, ⟨hk', fs', rType, rdata, hdv', ht, ?_, ne, he⟩,
        List.forall₂_same.mpr (fun _ _ => .inl rfl)⟩
      rw [← others rType key]
      exact hrdata

/-- The first of respelled entries differ in letter case only. -/
lemma firstAlias_respelled (h : List.Forall₂ RespelledEntry entries entries') :
    (firstAlias entries).map asciiLower = (firstAlias entries').map asciiLower := by
  cases h with
  | nil => rfl
  | cons h _ =>
    rcases h with rfl | ⟨a, b, rfl, rfl, e⟩
    · cases ‹Entry› with
      | json j => cases j <;> rfl
      | pair _ _ => rfl
    · show Except.ok (asciiLower a) = Except.ok (asciiLower b)
      rw [e]

/-- A label has records of a type if the data object lists any. -/
lemma hasRecords_iff (empty : start.labels = ∅) (ok : setupZoneData ext data start = .ok z)
    (distinct : DistinctKeys data) (hl : z.labels.lookup k = some l) (ht : t ≠ typeSOA) :
    HasRecords l t ↔ ∃ dk e es, Lists data k t dk (e :: es) := by
  constructor
  · rintro ⟨r, rs, hrec⟩
    obtain ⟨dk, entries, read, h, each, perm, _⟩ := setupZoneData_records empty ok hl ht hrec
    cases entries with
    | nil =>
      cases each
      cases perm.eq_nil
    | cons e es => exact ⟨dk, e, es, h⟩
  · rintro ⟨dk, e, es, h⟩
    obtain ⟨l', rs, hl', hrec⟩ := h.records empty ok distinct
    rw [hl] at hl'
    cases hl'
    obtain ⟨dk', entries, read, h', each, perm, _⟩ := setupZoneData_records empty ok hl ht hrec
    obtain ⟨_, rfl⟩ := h.unique distinct h'
    cases each with
    | cons _ _ =>
      cases rs with
      | nil => cases perm.symm.eq_nil
      | cons r rs => exact ⟨r, rs, hrec⟩

/-- The alias of a label is the first one that the data object lists. -/
lemma Lists.aliasEntry (empty : start.labels = ∅) (ok : setupZoneData ext data start = .ok z)
    (distinct : DistinctKeys data) (hl : z.labels.lookup k = some l)
    (h : Lists data k typeMF dk entries) : aliasEntry l = some (firstAlias entries) := by
  obtain ⟨l', rs, hl', hrec⟩ := h.records empty ok distinct
  rw [hl] at hl'
  cases hl'
  obtain ⟨dk', entries', read, h', each, _, _, unsorted, _⟩ :=
    setupZoneData_records empty ok hl (by decide) hrec
  obtain ⟨_, rfl⟩ := h.unique distinct h'
  have weightless : (read.map Record.weight).sum = 0 := by
    apply List.sum_eq_zero
    intro w hw
    obtain ⟨r, hr, rfl⟩ := List.mem_map.mp hw
    exact (readAliases_plain each r hr).1
  have order := unsorted (by simp [weightless])
  subst order
  unfold Zones.aliasEntry
  rw [hrec]
  cases each with
  | nil => rfl
  | cons first _ =>
    obtain ⟨b, rfl, hdata, _⟩ := readRecord_alias first
    simp only [List.map_cons, settled, hdata, firstAlias]

/-- A label without aliases in the file has none. -/
lemma aliasEntry_unlisted (empty : start.labels = ∅) (ok : setupZoneData ext data start = .ok z)
    (hl : z.labels.lookup k = some l) (unlisted : ∀ dk entries, ¬ Lists data k typeMF dk entries) :
    aliasEntry l = none := by
  unfold aliasEntry
  cases hrec : l.recordsOf typeMF with
  | none => rfl
  | some rs =>
    obtain ⟨dk, entries, _, h, _⟩ := setupZoneData_records empty ok hl (by decide) hrec
    exact (unlisted dk entries h).elim

/-- The `SOA` record is at the apex. -/
lemma hasRecords_soa (loaded : Loaded ext z) (hl : z.labels.lookup k = some l) :
    HasRecords l typeSOA ↔ k = "" := by
  constructor
  · rintro ⟨r, rs, hrec⟩
    by_contra ne
    rw [loaded.soa_only hl ne] at hrec
    cases hrec
  · rintro rfl
    obtain ⟨l', _, r, hl', hrec, _⟩ := loaded.soa
    rw [hl] at hl'
    cases hl'
    exact ⟨r, [], hrec⟩

/-- Both zones have records of the same types. -/
lemma Respelled.hasRecords (respelled : Respelled data data') (empty : start.labels = ∅)
    (ok : setupZoneData ext data start = .ok z) (ok' : setupZoneData ext data' start = .ok z')
    (distinct : DistinctKeys data) (distinct' : DistinctKeys data') (hl : z.labels.lookup k = some l)
    (hl' : z'.labels.lookup k = some l') (has : HasRecords l t) : HasRecords l' t := by
  by_cases ht : t = typeSOA
  · subst ht
    exact (hasRecords_soa (setupZoneData_loaded empty ok') hl').mpr
      ((hasRecords_soa (setupZoneData_loaded empty ok) hl).mp has)
  · obtain ⟨dk, e, es, h⟩ := (hasRecords_iff empty ok distinct hl ht).mp has
    obtain ⟨dk', entries', h', each⟩ := respelled.lists h
    cases each with
    | cons _ _ => exact (hasRecords_iff empty ok' distinct' hl' ht).mpr ⟨dk', _, _, h'⟩

/-- Respelled data objects make the same labels. -/
lemma Respelled.mem (respelled : Respelled data data') (empty : start.labels = ∅)
    (ok : setupZoneData ext data start = .ok z) (ok' : setupZoneData ext data' start = .ok z')
    (hk : k ∈ z.labels) : k ∈ z'.labels := by
  rw [mem_setupZoneData empty ok] at hk
  rw [mem_setupZoneData empty ok']
  rcases hk with rfl | ⟨dk, hdk, hk⟩
  · exact .inl rfl
  · obtain ⟨v, hv⟩ := Option.isSome_iff_exists.mp (AList.lookup_isSome.mpr hdk)
    obtain ⟨dk', v', hv', e, _⟩ := respelled.left hv
    refine .inr ⟨dk', AList.lookup_isSome.mp (by simp [hv']), ?_⟩
    rwa [← toLower_congr e]

/-- Data objects that differ in letter case only make zones that differ in the letter case of their aliases
    only. -/
theorem Respelled.twins (respelled : Respelled data data') (empty : start.labels = ∅)
    (ok : setupZoneData ext data start = .ok z) (ok' : setupZoneData ext data' start = .ok z')
    (distinct : DistinctKeys data) (distinct' : DistinctKeys data') : Twins ext z z' where
  loaded := ⟨setupZoneData_loaded empty ok, setupZoneData_loaded empty ok'⟩
  mem := ⟨respelled.mem empty ok ok', respelled.symm.mem empty ok' ok⟩
  lower := by
    intro k hk
    obtain ⟨l, hl⟩ := Option.isSome_iff_exists.mp (AList.lookup_isSome.mpr hk)
    rw [← (setupZoneData_names empty ok hl).1, asciiLower_toLower]
  names := fun hl => (setupZoneData_names empty ok hl).2
  names' := fun hl => (setupZoneData_names empty ok' hl).2
  records := by
    intro k l l' t hl hl' _
    exact ⟨respelled.hasRecords empty ok ok' distinct distinct' hl hl',
      respelled.symm.hasRecords empty ok' ok distinct' distinct hl' hl⟩
  aliases := by
    intro k l l' hl hl'
    by_cases listed : ∃ dk entries, Lists data k typeMF dk entries
    · obtain ⟨dk, entries, h⟩ := listed
      obtain ⟨dk', entries', h', each⟩ := respelled.lists h
      rw [h.aliasEntry empty ok distinct hl, h'.aliasEntry empty ok' distinct' hl']
      exact congrArg some (firstAlias_respelled each)
    · have none : ∀ dk entries, ¬ Lists data k typeMF dk entries :=
        fun dk entries h => listed ⟨dk, entries, h⟩
      have none' : ∀ dk entries, ¬ Lists data' k typeMF dk entries := by
        intro dk' entries' h'
        obtain ⟨dk, entries, h, _⟩ := respelled.symm.lists h'
        exact none dk entries h
      rw [aliasEntry_unlisted empty ok hl none, aliasEntry_unlisted empty ok' hl' none']

/-- Being twins is symmetric. -/
lemma Twins.symm (twins : Twins ext z z') : Twins ext z' z where
  loaded := twins.loaded.symm
  mem := twins.mem.symm
  lower := fun hk => twins.lower (twins.mem.mpr hk)
  names := twins.names'
  names' := twins.names
  records := fun hl hl' ht => (twins.records hl' hl ht).symm
  aliases := fun hl hl' => (twins.aliases hl' hl).symm

end

/-! ## Lookups that find nothing -/

section
variable {ext : Externals} {z z' : Zone} {targets : List String} {q : RRType} {b s t : String}

/-- A lookup that finds nothing has no matches for its value. -/
lemma findsNothing_value (h : FindsNothing z targets q b) :
    (lookupRec z targets [typeMF, typeCNAME, q]).value b = .ok [] := by
  induction h with
  | @intro b absent none noError _ ih =>
    have turn : ∀ t ∈ targets, matchTarget z [typeMF, typeCNAME, q]
        (lookupRec z targets [typeMF, typeCNAME, q]).value b t = .ok [] := by
      intro t ht
      cases hl : z.labels.lookup (targetName b t) with
      | none => rw [matchTarget, hl]
      | some l =>
        obtain ⟨hany, cname, own⟩ := none t ht l hl
        rw [matchTarget, hl]
        apply Res.collect_nothing
        intro q' hq'
        by_cases hmf : q' = typeMF
        · subst hmf
          have entry : aliasOf z b t = aliasEntry l := by rw [aliasOf, hl, Option.bind_some]
          rw [matchType_mf, ← entry]
          cases he : aliasOf z b t with
          | none => rfl
          | some e =>
            cases e with
            | error p => exact (noError t ht p he).elim
            | ok c => exact ih t ht c he
        · rcases List.mem_cons.mp hq' with rfl | hq'
          · exact (hmf rfl).elim
          · rcases List.mem_cons.mp hq' with rfl | hq'
            · exact matchType_absent (by decide) hmf (fun r rs h => cname ⟨r, rs, h⟩)
            · cases List.mem_singleton.mp hq'
              exact matchType_absent hany hmf (fun r rs h => own hmf ⟨r, rs, h⟩)
    rw [Recursion.value_eq]
    refine findBody_eq_ok.mpr ⟨[], Res.collect_nothing turn, .inr ⟨rfl, ?_⟩⟩
    rw [AList.lookup_eq_none.mpr absent]
    rfl

/-- A label with records matches. -/
lemma matchType_has {f : String → Res (List LabelMatch)} {l : Label} {q' : RRType} (hany : q' ≠ typeANY)
    (hmf : q' ≠ typeMF) (has : HasRecords l q') : matchType z f s l q' = .ok [⟨some l, q'⟩] := by
  obtain ⟨r, rs, hrec⟩ := has
  rw [matchType, if_neg hany, if_neg hmf, hrec]

/-- A lookup without matches finds nothing. -/
lemma findsNothing_of_value {r : List LabelMatch}
    (h : (lookupRec z targets [typeMF, typeCNAME, q]).value b = .ok r) (empty : r = []) :
    FindsNothing z targets q b := by
  revert empty
  refine (lookupRec z targets [typeMF, typeCNAME, q]).value_induction
    (motive := fun b r => r = [] → FindsNothing z targets q b) ?_ h
  rintro b r hr ih rfl
  -- what the turns for a target find is nothing
  have turn : ∀ t ∈ targets, ∀ l, z.labels.lookup (targetName b t) = some l →
      ∀ q' ∈ [typeMF, typeCNAME, q], matchType z (lookupRec z targets [typeMF, typeCNAME, q]).value b l
        q' = .ok [] := by
    intro t ht l hl q' hq'
    obtain ⟨x, hx, sub⟩ := findBody_visits hr ht hl hq'
    rw [hx, List.eq_nil_of_subset_nil sub]
  have absent : b ∉ z.labels := by
    intro mem
    obtain ⟨l, hl⟩ := Option.isSome_iff_exists.mp (AList.lookup_isSome.mpr mem)
    obtain ⟨found, _, ⟨ne, e⟩ | ⟨_, e⟩⟩ := findBody_eq_ok.mp hr
    · exact ne e.symm
    · simp [hl] at e
  refine .intro absent ?_ ?_ ?_
  · intro t ht l hl
    refine ⟨?_, ?_, ?_⟩
    · rintro rfl
      have none := turn t ht l hl typeANY (by simp)
      rw [matchType_any] at none
      cases none
    · intro has
      have none := turn t ht l hl typeCNAME (by simp)
      rw [matchType_has (by decide) (by decide) has] at none
      cases none
    · intro hmf has
      have none := turn t ht l hl q (by simp)
      by_cases hany : q = typeANY
      · subst hany
        rw [matchType_any] at none
        cases none
      · rw [matchType_has hany hmf has] at none
        cases none
  · intro t ht p bad
    obtain ⟨l, hl, he⟩ := Option.bind_eq_some_iff.mp bad
    have none := turn t ht l hl typeMF (by simp)
    rw [matchType_mf, he] at none
    cases none
  · intro t ht c points
    obtain ⟨l, hl, he⟩ := Option.bind_eq_some_iff.mp points
    have none := turn t ht l hl typeMF (by simp)
    rw [matchType_mf, he] at none
    have call : c ∈ aliasCalls z targets [typeMF, typeCNAME, q] b :=
      mem_aliasCalls.mpr ⟨List.mem_cons_self, t, ht, points⟩
    exact ih c call [] none rfl

/-- A name with a capital letter leads nowhere. -/
lemma capital_findsNothing (lower : ∀ k ∈ z.labels, asciiLower k = k) (capital : asciiLower b ≠ b) :
    FindsNothing z targets q b := by
  have absent : ∀ t, targetName b t ∉ z.labels := by
    intro t mem
    have same := lower _ mem
    unfold targetName at same
    split_ifs at same with at_sign ne
    · exact capital same
    · exact capital (asciiLower_of_initial (by simp) same)
    · rw [not_not] at ne
      subst ne
      exact capital rfl
  have unfound : ∀ t, z.labels.lookup (targetName b t) = none :=
    fun t => AList.lookup_eq_none.mpr (absent t)
  have noAlias : ∀ t, aliasOf z b t = none := fun t => by rw [aliasOf, unfound t]; rfl
  refine .intro (absent "@") ?_ ?_ ?_
  · intro t _ l hl
    rw [unfound t] at hl
    cases hl
  · intro t _ p h
    rw [noAlias t] at h
    cases h
  · intro t _ c h
    rw [noAlias t] at h
    cases h

end

/-! ## Lookups side by side -/

section
variable {ext : Externals} {z z' : Zone} {targets : List String} {q : RRType} {s t k : String}
variable {f f' : String → Res (List LabelMatch)} {l l' : Label} {x x' r r' : List LabelMatch}

/-- The names of the matches of two lookups. -/
lemma matchNames_append (x y : List LabelMatch) : matchNames (x ++ y) = matchNames x ++ matchNames y :=
  List.map_append

/-- There are as many names as matches. -/
lemma length_matchNames (x : List LabelMatch) : (matchNames x).length = x.length :=
  List.length_map _

/-- Twins have the same labels. -/
lemma Twins.lookup (twins : Twins ext z z') (k : String) :
    (z.labels.lookup k = none ∧ z'.labels.lookup k = none) ∨
      ∃ l l', z.labels.lookup k = some l ∧ z'.labels.lookup k = some l' := by
  by_cases mem : k ∈ z.labels
  · obtain ⟨l, hl⟩ := Option.isSome_iff_exists.mp (AList.lookup_isSome.mpr mem)
    obtain ⟨l', hl'⟩ := Option.isSome_iff_exists.mp (AList.lookup_isSome.mpr (twins.mem.mp mem))
    exact .inr ⟨l, l', hl, hl'⟩
  · exact .inl ⟨AList.lookup_eq_none.mpr mem,
      AList.lookup_eq_none.mpr (fun mem' => mem (twins.mem.mpr mem'))⟩

/-- A label has the same name in twins. -/
lemma Twins.names_lookup (twins : Twins ext z z') (k : String) :
    (z.labels.lookup k).map LabelOf.label = (z'.labels.lookup k).map LabelOf.label := by
  rcases twins.lookup k with ⟨hl, hl'⟩ | ⟨l, l', hl, hl'⟩
  · rw [hl, hl']
  · rw [hl, hl', Option.map_some, Option.map_some, twins.names hl, twins.names' hl']

/-- The aliases of both zones are there or not, and can be read or not, together. -/
lemma Twins.aliasOf (twins : Twins ext z z') (s t : String) :
    (aliasOf z s t).map (Except.map asciiLower) = (aliasOf z' s t).map (Except.map asciiLower) := by
  unfold Zones.aliasOf
  rcases twins.lookup (targetName s t) with ⟨hl, hl'⟩ | ⟨l, l', hl, hl'⟩
  · rw [hl, hl']
  · rw [hl, hl']
    exact twins.aliases hl hl'

/-- The aliases of twins differ in letter case only. -/
lemma Twins.points (twins : Twins ext z z') {b : String} (points : Zones.aliasOf z s t = some (.ok b)) :
    ∃ b', Zones.aliasOf z' s t = some (.ok b') ∧ asciiLower b = asciiLower b' := by
  have same := twins.aliasOf s t
  rw [points] at same
  rcases h : Zones.aliasOf z' s t with _ | p | b'
  · rw [h] at same
    cases same
  · rw [h] at same
    cases same
  · rw [h] at same
    exact ⟨b', rfl, Except.ok.inj (Option.some.inj same)⟩

/-- What a type other than `MF` finds. -/
lemma Twins.matchType (twins : Twins ext z z') (hl : z.labels.lookup k = some l)
    (hl' : z'.labels.lookup k = some l') (hq : q ≠ typeMF) :
    ∃ x x', Zones.matchType z f s l q = .ok x ∧ Zones.matchType z' f' s l' q = .ok x' ∧
      matchNames x = matchNames x' := by
  by_cases hany : q = typeANY
  · subst hany
    refine ⟨_, _, matchType_any f l, matchType_any f' l', ?_⟩
    simp only [matchNames, List.map_cons, List.map_nil, twins.names_lookup s]
  · by_cases has : HasRecords l q
    · refine ⟨_, _, matchType_has hany hq has,
        matchType_has hany hq ((twins.records hl hl' hq).mp has), ?_⟩
      simp only [matchNames, List.map_cons, List.map_nil, Option.map_some, twins.names hl,
        twins.names' hl']
    · have hasNot : ¬ HasRecords l' q := fun h => has ((twins.records hl hl' hq).mpr h)
      exact ⟨_, _, matchType_absent hany hq (fun r rs h => has ⟨r, rs, h⟩),
        matchType_absent hany hq (fun r rs h => hasNot ⟨r, rs, h⟩), rfl⟩

/-- What one target finds in one zone has a counterpart in the other, if this is so along its alias. -/
lemma Twins.matchTarget (twins : Twins ext z z') {R : List LabelMatch → List LabelMatch → Prop}
    (same : ∀ {x x'}, matchNames x = matchNames x' → R x x')
    (append : ∀ {x x' y y'}, R x x' → R y y' → R (x ++ y) (x' ++ y'))
    (along : ∀ b b' y, Zones.aliasOf z s t = some (.ok b) → Zones.aliasOf z' s t = some (.ok b') →
      f b = .ok y → ∃ y', f' b' = .ok y' ∧ R y y')
    (h : Zones.matchTarget z [typeMF, typeCNAME, q] f s t = .ok x) :
    ∃ x', Zones.matchTarget z' [typeMF, typeCNAME, q] f' s t = .ok x' ∧ R x x' := by
  unfold Zones.matchTarget at h ⊢
  rcases twins.lookup (targetName s t) with ⟨hl, hl'⟩ | ⟨l, l', hl, hl'⟩
  · rw [hl] at h
    rw [hl']
    cases h
    exact ⟨[], rfl, same rfl⟩
  · rw [hl] at h
    rw [hl']
    refine Res.collect_transfer (same rfl) append ?_ h
    intro q' _ y hy
    by_cases hmf : q' = typeMF
    · subst hmf
      have entry : Zones.aliasOf z s t = aliasEntry l := by rw [Zones.aliasOf, hl, Option.bind_some]
      have entry' : Zones.aliasOf z' s t = aliasEntry l' := by rw [Zones.aliasOf, hl', Option.bind_some]
      rw [matchType_mf, ← entry] at hy
      rw [matchType_mf, ← entry']
      rcases he : Zones.aliasOf z s t with _ | p | b
      · rw [he] at hy
        cases hy
        have none' := twins.aliasOf s t
        rw [he, Option.map_none, eq_comm, Option.map_eq_none_iff] at none'
        rw [none']
        exact ⟨[], rfl, same rfl⟩
      · rw [he] at hy
        cases hy
      · rw [he] at hy
        obtain ⟨b', he', _⟩ := twins.points he
        rw [he']
        exact along b b' y he he' hy
    · obtain ⟨y1, y', h1, h', names⟩ := twins.matchType hl hl' hmf
      rw [hy] at h1
      cases h1
      exact ⟨y', h', same names⟩

/-- Along an alias that is the same in both zones, the lookup goes on alike. -/
lemma SpelledAlike.next (alike : SpelledAlike z z' targets q s) {b : String} (ht : t ∈ targets)
    (points : Zones.aliasOf z s t = some (.ok b)) (points' : Zones.aliasOf z' s t = some (.ok b)) :
    SpelledAlike z z' targets q b :=
  fun a reach => alike a (.head ⟨t, ht, points, points'⟩ reach)

/-- Along an alias that is the same in both zones, the lookup stays one-sided. -/
lemma OneSided.next (sided : OneSided z z' targets s) {b : String} (ht : t ∈ targets)
    (points : Zones.aliasOf z s t = some (.ok b)) (points' : Zones.aliasOf z' s t = some (.ok b)) :
    OneSided z z' targets b :=
  fun a reach => sided a (.head ⟨t, ht, points, points'⟩ reach)

/-- Going on alike is symmetric. -/
lemma SpelledAlike.symm (alike : SpelledAlike z z' targets q s) : SpelledAlike z' z targets q s := by
  intro a reach t ht b' b points' points ne
  have reach' : ReflTransGen (Together z z' targets) s a :=
    reach.lift id (fun _ _ ⟨t, ht, h', h⟩ => ⟨t, ht, h, h'⟩)
  exact (alike a reach' t ht b b' points points' ne.symm).symm

/-- A label that stands for itself has the same name in both zones. -/
lemma Twins.itself (twins : Twins ext z z') (s : String) :
    matchNames ((z.labels.lookup s).toList.map (⟨some ·, 0⟩)) =
      matchNames ((z'.labels.lookup s).toList.map (⟨some ·, 0⟩)) := by
  rcases twins.lookup s with ⟨hl, hl'⟩ | ⟨l, l', hl, hl'⟩
  · rw [hl, hl']
  · rw [hl, hl']
    simp only [matchNames, Option.toList_some, List.map_cons, List.map_nil, Option.map_some,
      twins.names hl, twins.names' hl']

/-- Where the aliases are spelled alike, the lookup in the second zone follows the one in the first. -/
theorem Twins.follows (twins : Twins ext z z')
    (h : (lookupRec z targets [typeMF, typeCNAME, q]).value s = .ok r)
    (alike : SpelledAlike z z' targets q s) :
    ∃ r', (lookupRec z' targets [typeMF, typeCNAME, q]).value s = .ok r' ∧
      matchNames r = matchNames r' := by
  revert alike
  refine (lookupRec z targets [typeMF, typeCNAME, q]).value_induction
    (motive := fun s r => SpelledAlike z z' targets q s →
      ∃ r', (lookupRec z' targets [typeMF, typeCNAME, q]).value s = .ok r' ∧
        matchNames r = matchNames r') ?_ h
  intro s r hr ih alike
  obtain ⟨found, hfound, rest⟩ := findBody_eq_ok.mp hr
  obtain ⟨found', hfound', names⟩ : ∃ found', Res.collect (Zones.matchTarget z' [typeMF, typeCNAME, q]
      (lookupRec z' targets [typeMF, typeCNAME, q]).value s) targets = .ok found' ∧
      matchNames found = matchNames found' := by
    have append : ∀ {x x' y y'}, matchNames x = matchNames x' → matchNames y = matchNames y' →
        matchNames (x ++ y) = matchNames (x' ++ y') := by
      intro x x' y y' hx hy
      rw [matchNames_append, matchNames_append, hx, hy]
    refine Res.collect_transfer (R := fun x x' => matchNames x = matchNames x') rfl append ?_ hfound
    · intro t ht x hx
      refine twins.matchTarget (R := fun x x' => matchNames x = matchNames x') id append ?_ hx
      · intro b b' y points points' hy
        by_cases e : b = b'
        · subst e
          have call : b ∈ aliasCalls z targets [typeMF, typeCNAME, q] s :=
            mem_aliasCalls.mpr ⟨List.mem_cons_self, t, ht, points⟩
          exact ih b call y hy (alike.next ht points points')
        · obtain ⟨none, none'⟩ := alike s .refl t ht b b' points points' e
          rw [findsNothing_value none] at hy
          cases hy
          exact ⟨[], findsNothing_value none', rfl⟩
  have length : found.length = found'.length := by
    rw [← length_matchNames, names, length_matchNames]
  rw [Recursion.value_eq]
  rcases rest with ⟨ne, rfl⟩ | ⟨rfl, rfl⟩
  · refine ⟨found', findBody_eq_ok.mpr ⟨found', hfound', .inl ⟨?_, rfl⟩⟩, names⟩
    rintro rfl
    exact ne (List.length_eq_zero_iff.mp length)
  · have empty : found' = [] := List.length_eq_zero_iff.mp length.symm
    exact ⟨_, findBody_eq_ok.mpr ⟨found', hfound', .inr ⟨empty, rfl⟩⟩, twins.itself s⟩

/-- A match of type 0 that was found for a target is another label than that of the name itself: it lies
    on the way along the alias, and there is no way back. -/
lemma zero_match_elsewhere (loaded : Loaded ext z)
    (names : ∀ {k l}, z.labels.lookup k = some l → l.label = k)
    (h : (lookupRec z targets [typeMF, typeCNAME, q]).value s = .ok r)
    (hfound : Res.collect (Zones.matchTarget z [typeMF, typeCNAME, q]
      (lookupRec z targets [typeMF, typeCNAME, q]).value s) targets = .ok x)
    {m : LabelMatch} (hm : m ∈ x) (zero : m.type = 0) (label : m.label = some l) : l.label ≠ s := by
  rintro rfl
  have any : typeANY ≠ (0 : RRType) := by decide
  obtain ⟨t, ht, y, hy, hm⟩ := Res.mem_collect hfound hm
  cases hk : z.labels.lookup (targetName l.label t) with
  | none =>
    rw [Zones.matchTarget, hk] at hy
    cases hy
    cases hm
  | some l1 =>
    rw [Zones.matchTarget, hk] at hy
    obtain ⟨q', _, y', hy', hm⟩ := Res.mem_collect hy hm
    have absent : ∀ {k l2}, z.labels.lookup k = some l2 → ¬ HasRecords l2 0 := by
      rintro k l2 hl2 ⟨r, rs, hrec⟩
      rw [(loaded.filed hl2).absent (.inr rfl)] at hrec
      cases hrec
    by_cases hmf : q' = typeMF
    · subst hmf
      rw [matchType_mf] at hy'
      rcases he : aliasEntry l1 with _ | p | b
      · rw [he] at hy'
        cases hy'
        cases hm
      · rw [he] at hy'
        cases hy'
      · rw [he] at hy'
        have edge : AliasEdge z targets l.label b :=
          ⟨t, ht, by rw [Zones.aliasOf, hk, Option.bind_some, he]⟩
        obtain ⟨a, reach, own | ⟨l2, hl2, e⟩⟩ := mem_of_value hy' hm
        · cases own with
          | any _ _ _ => exact any zero
          | records _ _ _ _ hl2 hrec =>
            have zero : _ = (0 : RRType) := zero
            subst zero
            exact absent hl2 ⟨_, _, hrec⟩
        · subst e
          cases label
          -- the label lies on a loop of aliases
          have back : ReflTransGen (AliasEdge z targets) b l.label := by
            rw [names hl2]
            exact reach.lift id (fun _ _ h => h.2)
          exact acyclic_of_value List.mem_cons_self h ⟨l.label, .refl, .head' edge back⟩
    · by_cases hany : q' = typeANY
      · subst hany
        rw [matchType_any] at hy'
        cases hy'
        cases List.mem_singleton.mp hm
        exact any zero
      · obtain ⟨⟨r, rs, hrec⟩, rfl⟩ := matchType_records hany hmf ⟨y', hy', hm⟩
        have zero : q' = 0 := zero
        subst zero
        exact absent hk ⟨r, rs, hrec⟩

/-- If one target finds the same in both zones, and no more along the alias of the first, then it finds the
    same along the aliases. -/
lemma Twins.along_eq (twins : Twins ext z z') {b b' : String} {y y' : List LabelMatch}
    (h : Zones.matchTarget z [typeMF, typeCNAME, q] f s t = .ok x)
    (h' : Zones.matchTarget z' [typeMF, typeCNAME, q] f' s t = .ok x')
    (names : matchNames x = matchNames x') (points : Zones.aliasOf z s t = some (.ok b))
    (points' : Zones.aliasOf z' s t = some (.ok b')) (hy : f b = .ok y) (hy' : f' b' = .ok y')
    (fewer : y.length ≤ y'.length) : matchNames y = matchNames y' := by
  obtain ⟨l, hl, he⟩ := Option.bind_eq_some_iff.mp points
  obtain ⟨l', hl', he'⟩ := Option.bind_eq_some_iff.mp points'
  have first : Zones.matchType z f s l typeMF = .ok y := by rw [matchType_mf, he, ← hy]
  have first' : Zones.matchType z' f' s l' typeMF = .ok y' := by rw [matchType_mf, he', ← hy']
  rw [Zones.matchTarget, hl] at h
  rw [Zones.matchTarget, hl'] at h'
  refine (Res.collect_turns_eq ?_ h h').2 names typeMF List.mem_cons_self y y' first first'
  intro q' _ y1 y1' h1 h1'
  by_cases hmf : q' = typeMF
  · subst hmf
    rw [first] at h1
    rw [first'] at h1'
    cases h1
    cases h1'
    exact fewer
  · obtain ⟨y2, y2', h2, h2', same⟩ : ∃ y2 y2', Zones.matchType z f s l q' = .ok y2 ∧
        Zones.matchType z' f' s l' q' = .ok y2' ∧ matchNames y2 = matchNames y2' :=
      twins.matchType hl hl' hmf
    rw [h1] at h2
    rw [h1'] at h2'
    cases h2
    cases h2'
    rw [← length_matchNames, same, length_matchNames]

/-- From these two names on the aliases are spelled alike, or both names lead to nothing. -/
def AlikeFrom (z z' : Zone) (targets : List String) (q : RRType) (b b' : String) : Prop :=
  if b = b' then SpelledAlike z z' targets q b
  else FindsNothing z targets q b ∧ FindsNothing z' targets q b'

/-- The lookup along an alias of `s` in the first zone finds no more than the one in the second zone, and
    the same only where the aliases are spelled alike. -/
def FewerAlong (z z' : Zone) (targets : List String) (q : RRType) (s : String) : Prop :=
  ∀ t ∈ targets, ∀ b b' y', Zones.aliasOf z s t = some (.ok b) → Zones.aliasOf z' s t = some (.ok b') →
    (lookupRec z' targets [typeMF, typeCNAME, q]).value b' = .ok y' →
    ∃ y, (lookupRec z targets [typeMF, typeCNAME, q]).value b = .ok y ∧ y.length ≤ y'.length ∧
      (matchNames y = matchNames y' → AlikeFrom z z' targets q b b')

/-- Without names of matches there are no matches. -/
lemma eq_nil_of_matchNames (names : matchNames [] = matchNames x) : x = [] := by
  rw [← List.length_eq_zero_iff, ← length_matchNames, ← names]
  rfl

/-- The matches of two lookups, compared one by one. -/
lemma length_append_le {x x' y y' : List LabelMatch} (hx : x.length ≤ x'.length)
    (hy : y.length ≤ y'.length) : (x ++ y).length ≤ (x' ++ y').length := by
  rw [List.length_append, List.length_append]
  omega

/-- The lookup of a name goes on alike if it does along each pair of aliases. -/
lemma SpelledAlike.of_parts (parts : ∀ t ∈ targets, ∀ b b', Zones.aliasOf z s t = some (.ok b) →
    Zones.aliasOf z' s t = some (.ok b') → AlikeFrom z z' targets q b b') :
    SpelledAlike z z' targets q s := by
  intro a reach t ht b b' points points' ne
  rcases ReflTransGen.cases_head reach with rfl | ⟨c, ⟨u, hu, pointsc, pointsc'⟩, reach⟩
  · have part := parts t ht b b' points points'
    rwa [AlikeFrom, if_neg ne] at part
  · have part := parts u hu c c pointsc pointsc'
    rw [AlikeFrom, if_pos rfl] at part
    exact part a reach t ht b b' points points' ne

/-- An alias with a capital letter leads to nothing, so there is no more to be found along it. -/
lemma Twins.fewer_capital (twins : Twins ext z z') {b b' : String} {y' : List LabelMatch} (e : b ≠ b')
    (capital : asciiLower b ≠ b) (hy' : (lookupRec z' targets [typeMF, typeCNAME, q]).value b' = .ok y') :
    ∃ y, (lookupRec z targets [typeMF, typeCNAME, q]).value b = .ok y ∧ y.length ≤ y'.length ∧
      (matchNames y = matchNames y' → AlikeFrom z z' targets q b b') := by
  have none : FindsNothing z targets q b := capital_findsNothing (fun k hk => twins.lower hk) capital
  refine ⟨[], findsNothing_value none, Nat.zero_le _, fun names => ?_⟩
  rw [AlikeFrom, if_neg e]
  exact ⟨none, findsNothing_of_value hy' (eq_nil_of_matchNames names)⟩

/-- A target finds no more in the first zone. -/
lemma Twins.fewer_turn (twins : Twins ext z z') (along : FewerAlong z z' targets q s) (ht : t ∈ targets)
    (hx' : Zones.matchTarget z' [typeMF, typeCNAME, q]
      (lookupRec z' targets [typeMF, typeCNAME, q]).value s t = .ok x') :
    ∃ x, Zones.matchTarget z [typeMF, typeCNAME, q]
      (lookupRec z targets [typeMF, typeCNAME, q]).value s t = .ok x ∧ x.length ≤ x'.length := by
  refine twins.symm.matchTarget (R := fun x' x => x.length ≤ x'.length) ?_ length_append_le ?_ hx'
  · intro x' x names
    rw [← length_matchNames, ← names, length_matchNames]
  · intro b' b y' points' points hy'
    obtain ⟨y, hy, le, _⟩ := along t ht b b' y' points points' hy'
    exact ⟨y, hy, le⟩

/-- The targets together find no more in the first zone, and the same only where the aliases are spelled
    alike. -/
lemma Twins.fewer_found (twins : Twins ext z z') (along : FewerAlong z z' targets q s)
    (hfound' : Res.collect (Zones.matchTarget z' [typeMF, typeCNAME, q]
      (lookupRec z' targets [typeMF, typeCNAME, q]).value s) targets = .ok x') :
    ∃ x, Res.collect (Zones.matchTarget z [typeMF, typeCNAME, q]
        (lookupRec z targets [typeMF, typeCNAME, q]).value s) targets = .ok x ∧
      x.length ≤ x'.length ∧ (matchNames x = matchNames x' → SpelledAlike z z' targets q s) := by
  obtain ⟨found, hfound, le⟩ := Res.collect_transfer (R := fun x' x => x.length ≤ x'.length)
    (Nat.le_refl 0) length_append_le (fun t ht _ hx' => twins.fewer_turn along ht hx') hfound'
  refine ⟨found, hfound, le, fun names => .of_parts ?_⟩
  have each := (Res.collect_turns_eq (fun t ht x x' hx hx' => by
    obtain ⟨x1, hx1, le⟩ := twins.fewer_turn along ht hx'
    rw [hx] at hx1
    cases hx1
    exact le) hfound hfound').2 names
  intro t ht b b' points points'
  obtain ⟨x', hx', _⟩ := Res.collect_mem hfound' ht
  obtain ⟨x, hx, _⟩ := Res.collect_mem hfound ht
  obtain ⟨y', hy', _⟩ := matchTarget_follows hx' List.mem_cons_self points'
  obtain ⟨y, hy, le, alike⟩ := along t ht b b' y' points points' hy'
  exact alike (twins.along_eq hx hx' (each t ht x x' hx hx') points points' hy hy' le)

/-- A label that stands for itself does not make up for what the targets find in the second zone. -/
lemma Twins.itself_fewer (twins : Twins ext z z')
    (value : (lookupRec z' targets [typeMF, typeCNAME, q]).value s = .ok r')
    (hfound' : Res.collect (Zones.matchTarget z' [typeMF, typeCNAME, q]
      (lookupRec z' targets [typeMF, typeCNAME, q]).value s) targets = .ok r') (ne : r' ≠ []) :
    ((z.labels.lookup s).toList.map (fun l => LabelMatch.mk (some l) 0)).length ≤ r'.length ∧
      matchNames ((z.labels.lookup s).toList.map (⟨some ·, 0⟩)) ≠ matchNames r' := by
  rcases twins.lookup s with ⟨hl, hl'⟩ | ⟨l, l', hl, hl'⟩
  · rw [hl]
    exact ⟨Nat.zero_le _, fun names => ne (eq_nil_of_matchNames names)⟩
  · rw [hl]
    refine ⟨List.length_pos_iff.mpr ne, fun names => ?_⟩
    have single : r'.length = 1 := by
      rw [← length_matchNames, ← names]
      rfl
    obtain ⟨m, rfl⟩ := List.length_eq_one_iff.mp single
    have key : (some l.label, (0 : RRType)) = (m.label.map LabelOf.label, m.type) :=
      (List.cons.inj names).1
    obtain ⟨l2, hl2, label⟩ := Option.map_eq_some_iff.mp (congrArg Prod.fst key).symm
    have elsewhere := zero_match_elsewhere twins.loaded.2 twins.names' value hfound'
      List.mem_cons_self (congrArg Prod.snd key).symm hl2
    exact elsewhere (label.trans (twins.names hl))

/-- If the first zone has a capital letter wherever the spellings part, then its lookup finds no more than
    the one in the second zone, and the same only where the aliases are spelled alike. -/
theorem Twins.fewer (twins : Twins ext z z')
    (h : (lookupRec z' targets [typeMF, typeCNAME, q]).value s = .ok r')
    (sided : OneSided z z' targets s) :
    ∃ r, (lookupRec z targets [typeMF, typeCNAME, q]).value s = .ok r ∧ r.length ≤ r'.length ∧
      (matchNames r = matchNames r' → SpelledAlike z z' targets q s) := by
  revert sided
  refine (lookupRec z' targets [typeMF, typeCNAME, q]).value_induction
    (motive := fun s r' => OneSided z z' targets s →
      ∃ r, (lookupRec z targets [typeMF, typeCNAME, q]).value s = .ok r ∧ r.length ≤ r'.length ∧
        (matchNames r = matchNames r' → SpelledAlike z z' targets q s)) ?_ h
  intro s r' hr' ih sided
  have along : FewerAlong z z' targets q s := by
    intro t ht b b' y' points points' hy'
    by_cases e : b = b'
    · subst e
      have call : b ∈ aliasCalls z' targets [typeMF, typeCNAME, q] s :=
        mem_aliasCalls.mpr ⟨List.mem_cons_self, t, ht, points'⟩
      obtain ⟨y, hy, le, alike⟩ := ih b call y' hy' (sided.next ht points points')
      exact ⟨y, hy, le, by rwa [AlikeFrom, if_pos rfl]⟩
    · exact twins.fewer_capital e (sided s .refl t ht b b' points points' e) hy'
  obtain ⟨found', hfound', rest⟩ := findBody_eq_ok.mp hr'
  obtain ⟨found, hfound, le, alike⟩ := twins.fewer_found along hfound'
  have value : (lookupRec z' targets [typeMF, typeCNAME, q]).value s = .ok r' := by
    rw [Recursion.value_eq]
    exact hr'
  rw [Recursion.value_eq]
  by_cases empty : found = []
  · refine ⟨_, findBody_eq_ok.mpr ⟨found, hfound, .inr ⟨empty, rfl⟩⟩, ?_⟩
    rcases rest with ⟨ne', rfl⟩ | ⟨empty', rfl⟩
    · obtain ⟨le, differ⟩ := twins.itself_fewer value hfound' ne'
      exact ⟨le, fun names => (differ names).elim⟩
    · refine ⟨?_, fun _ => alike (by rw [empty, empty'])⟩
      rw [← length_matchNames, twins.itself s, length_matchNames]
  · refine ⟨found, findBody_eq_ok.mpr ⟨found, hfound, .inl ⟨empty, rfl⟩⟩, ?_⟩
    rcases rest with ⟨_, rfl⟩ | ⟨empty', _⟩
    · exact ⟨le, alike⟩
    · rw [empty'] at le
      exact (empty (List.length_eq_zero_iff.mp (Nat.le_zero.mp le))).elim

end
end GeoDNS.Zones
