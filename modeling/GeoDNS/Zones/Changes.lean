import GeoDNS.Lib.Letters
import GeoDNS.Zones.Loaded

/-!
# The labels of a zone file, field by field

`readField` changes a label in one place, and which place that is depends on the name of the field alone.
`readChange` computes the change without the label, `Change.apply` makes it. The loop over the fields of
a label is then a traversal followed by a fold over the changes (`readFields_eq`), and since no two
fields have the same name, each part of the label comes from the one field it belongs to
(`LabelOf.Assembled`). In the same way the loop over the labels is a traversal followed by insertions
(`readLabels_eq`).

So what has been read is known by the names of labels and fields, without the order in which the loops
came to them.
-/

namespace GeoDNS.Zones
open GeoDNS.Lib GeoDNS.Dns GeoDNS.Health

/-- What one field of a label sets. -/
inductive Change where
  | maxHosts (n : Int)
  | closest (b : Bool)
  | ttl (n : Int)
  | test (ref : HealthReference)
  | records (t : RRType) (slots : List (Option Record))
  | nothing

/-- The slots of a type that has none yet. -/
def readSlots (ext : Externals) (origin label dk : String) (t : RRType) (rdata : Json) :
    Res (List (Option Record)) := do
  let entries ← recordEntries rdata
  let slots ← entries.mapM (readRecord origin label dk t)
  if 0 < slotWeight slots then sortSlots ext slots else .ok slots

/-- The health reference that a field gives. -/
def healthChange : Json → Res Change
  | .obj data => do
    match ← newReferenceFromMap (Json.fields data) with
    | .error _ => return .nothing
    | .ok tester => return .test tester
  | _ => .ok .nothing

/-- What a field sets in a label of this name. -/
def readChange (ext : Externals) (origin label dk : String) (rType : String) (rdata : Json) :
    Res Change :=
  if rType = "max_hosts" then Change.maxHosts <$> Typeutil.toInt rdata
  else if rType = "closest" then Change.closest <$> rdata.asBool
  else if rType = "ttl" then Change.ttl <$> Typeutil.toInt rdata
  else if rType = "health" then healthChange rdata
  else
    match recordTypes rType, rdata with
    | none, _ => .ok .nothing
    | some _, .null => .ok .nothing
    | some t, rdata => Change.records t <$> readSlots ext origin label dk t rdata

namespace Change

/-- Make the change. -/
def apply (l : RawLabel) : Change → RawLabel
  | maxHosts n => { l with maxHosts := n }
  | closest b => { l with closest := b }
  | ttl n => { l with ttl := n }
  | test ref => { l with test := some ref }
  | records t slots => (l.setRecords t slots).setWeight t (slotWeight slots)
  | nothing => l

/-- Does the change make the zone one with nearest servers? -/
def closes : Change → Bool
  | closest b => b
  | _ => false

/-- The name of the field that a change comes from. -/
def At (k : String) : Change → Prop
  | maxHosts _ => k = "max_hosts"
  | closest _ => k = "closest"
  | ttl _ => k = "ttl"
  | test _ => k = "health"
  | records t _ => recordTypes k = some t
  | nothing => True

/-- A change keeps the name of the label. -/
@[simp] lemma apply_label (l : RawLabel) (c : Change) : (c.apply l).label = l.label := by
  cases c <;> rfl

end Change

/-! ## The fields of a label -/

section
variable {ext : Externals} {origin label dk : String} {k : String} {rdata : Json} {c : Change}
variable {l : RawLabel} {b : Bool}

/-- What the field `health` changes. -/
lemma healthChange_cases (h : healthChange rdata = .ok c) : (∃ ref, c = .test ref) ∨ c = .nothing := by
  cases rdata with
  | obj data =>
    obtain ⟨ref, _, h⟩ := Res.bind_eq_ok.mp h
    cases ref with
    | error err =>
      cases h
      exact .inr rfl
    | ok tester =>
      cases h
      exact .inl ⟨tester, rfl⟩
  | _ =>
    cases h
    exact .inr rfl

/-- A change belongs to the name of its field. -/
lemma readChange_at (h : readChange ext origin label dk k rdata = .ok c) : c.At k := by
  unfold readChange at h
  split_ifs at h with hmax hclosest httl hhealth
  · obtain ⟨n, _, rfl⟩ := Res.map_eq_ok.mp h
    exact hmax
  · obtain ⟨n, _, rfl⟩ := Res.map_eq_ok.mp h
    exact hclosest
  · obtain ⟨n, _, rfl⟩ := Res.map_eq_ok.mp h
    exact httl
  · rcases healthChange_cases h with ⟨ref, rfl⟩ | rfl
    · exact hhealth
    · trivial
  · split at h
    · cases h
      trivial
    · cases h
      trivial
    · rename_i hk _
      obtain ⟨slots, _, rfl⟩ := Res.map_eq_ok.mp h
      exact hk

/-- The field of a record type. -/
lemma readChange_records {t : RRType} (hk : recordTypes k = some t) (ne : rdata ≠ .null) :
    readChange ext origin label dk k rdata =
      Change.records t <$> readSlots ext origin label dk t rdata := by
  -- the names of record types are none of the names of options
  have plain : ∀ name, recordTypes name = none → k ≠ name := by
    rintro name none rfl
    rw [none] at hk
    cases hk
  unfold readChange
  rw [if_neg (plain _ rfl), if_neg (plain _ rfl), if_neg (plain _ rfl), if_neg (plain _ rfl), hk]
  cases rdata with
  | null => exact (ne rfl).elim
  | _ => rfl

/-- A change of records comes from the field of a record type. -/
lemma of_readChange_records {t : RRType} {slots : List (Option Record)}
    (h : readChange ext origin label dk k rdata = .ok (.records t slots)) :
    recordTypes k = some t ∧ rdata ≠ .null ∧ readSlots ext origin label dk t rdata = .ok slots := by
  have hk : recordTypes k = some t := readChange_at h
  have ne : rdata ≠ .null := by
    rintro rfl
    unfold readChange at h
    rw [hk] at h
    split_ifs at h
    · cases h
    · cases h
    · cases h
    · cases h
    · cases h
  rw [readChange_records hk ne] at h
  obtain ⟨slots', hslots, e⟩ := Res.map_eq_ok.mp h
  cases e
  exact ⟨hk, ne, hslots⟩

/-- The slots of a type without weight so far. -/
lemma readType_eq {t : RRType} (blank : l.weightOf t = 0) :
    readType ext origin dk t rdata l =
      (fun slots => Change.apply l (.records t slots)) <$> readSlots ext origin l.label dk t rdata := by
  unfold readType readSlots
  cases recordEntries rdata with
  | panic p => rfl
  | diverge => rfl
  | ok entries =>
    rw [Res.ok_bind, Res.ok_bind]
    cases entries.mapM (readRecord origin l.label dk t) with
    | panic p => rfl
    | diverge => rfl
    | ok slots =>
      rw [Res.ok_bind, Res.ok_bind]
      dsimp only
      rw [blank, zero_add]
      split_ifs with pos
      · cases hsort : sortSlots ext slots with
        | panic p => rfl
        | diverge => rfl
        | ok sorted =>
          simp only [Res.ok_bind, Res.pure_eq_ok, Res.map_ok, Change.apply,
            slotWeight_perm (sortSlots_perm hsort)]
      · rfl

/-- One field makes the change that belongs to it. -/
lemma readField_eq (blank : ∀ t, recordTypes k = some t → l.weightOf t = 0) :
    readField ext origin dk (l, b) k rdata =
      (fun c => (Change.apply l c, b || c.closes)) <$> readChange ext origin l.label dk k rdata := by
  unfold readField readChange
  dsimp only
  split_ifs with hmax hclosest httl hhealth
  · cases Typeutil.toInt rdata with
    | ok n => simp [Change.apply, Change.closes]
    | panic p => rfl
    | diverge => rfl
  · cases rdata.asBool with
    | ok n => rfl
    | panic p => rfl
    | diverge => rfl
  · cases Typeutil.toInt rdata with
    | ok n => simp [Change.apply, Change.closes]
    | panic p => rfl
    | diverge => rfl
  · cases rdata with
    | obj data =>
      unfold addHealthReference healthChange
      dsimp only
      cases newReferenceFromMap (Json.fields data) with
      | ok ref => cases ref <;> simp [Change.apply, Change.closes]
      | panic p => rfl
      | diverge => rfl
    | _ => simp [addHealthReference, healthChange, Change.apply, Change.closes]
  · cases hk : recordTypes k with
    | none => simp [Change.apply, Change.closes]
    | some t =>
      cases rdata with
      | null => simp [Change.apply, Change.closes]
      | _ =>
        dsimp only
        rw [readType_eq (blank t hk)]
        generalize readSlots ext origin l.label dk t _ = slots
        cases slots with
        | ok slots => simp [Change.closes]
        | panic p => rfl
        | diverge => rfl

/-- A field of another name leaves the weight of a type alone. -/
lemma Change.weightOf_apply {k' : String} {t : RRType} (at_k : c.At k) (hk' : recordTypes k' = some t)
    (ne : k' ≠ k) : (c.apply l).weightOf t = l.weightOf t := by
  cases c with
  | records t' slots =>
    have other : t ≠ t' := by
      rintro rfl
      exact ne ((typeName_of_recordTypes hk').trans (typeName_of_recordTypes at_k).symm)
    rw [Change.apply, LabelOf.weightOf_setWeight, if_neg other, LabelOf.weightOf_setRecords]
  | _ => rfl

/-- The changes made one after the other. -/
def applyAll (l : RawLabel) (changes : List (Σ _ : String, Change)) : RawLabel :=
  changes.foldl (fun l e => e.2.apply l) l

/-- The loop over the fields of a label: no type is filled twice. -/
theorem readFields_eq {es : List (Σ _ : String, Json)} (nodup : es.NodupKeys)
    (blank : ∀ e ∈ es, ∀ t, recordTypes e.1 = some t → l.weightOf t = 0) :
    es.foldlM (fun st e => readField ext origin dk st e.1 e.2) (l, b) =
      (fun changes => (applyAll l changes, b || changes.any (fun e => e.2.closes))) <$>
        GoMap.traverseEntries (readChange ext origin l.label dk) es := by
  induction es generalizing l b with
  | nil => simp [GoMap.traverseEntries, applyAll]
  | cons e es ih =>
    obtain ⟨hnot, nodup⟩ := List.nodupKeys_cons.mp nodup
    rw [List.foldlM_cons, readField_eq (blank e List.mem_cons_self), GoMap.traverseEntries]
    cases hc : readChange ext origin l.label dk e.1 e.2 with
    | panic p => rfl
    | diverge => rfl
    | ok c =>
      have rest : ∀ e' ∈ es, ∀ t, recordTypes e'.1 = some t → (c.apply l).weightOf t = 0 := by
        intro e' he' t ht
        have ne : e'.1 ≠ e.1 := by
          intro same
          exact hnot (same ▸ List.mem_keys_of_mem he')
        rw [Change.weightOf_apply (readChange_at hc) ht ne]
        exact blank e' (List.mem_cons_of_mem _ he') t ht
      rw [Res.map_ok, Res.ok_bind, Res.ok_bind, ih nodup rest, Change.apply_label]
      cases GoMap.traverseEntries (readChange ext origin l.label dk) es with
      | ok changes => simp [applyAll, Bool.or_assoc]
      | panic p => rfl
      | diverge => rfl

end

/-! ## The parts of a label -/

namespace Change

/-- The host limit after a change. -/
def maxHostsAfter (n : Int) : Change → Int
  | maxHosts m => m
  | _ => n

/-- The flag for nearest servers after a change. -/
def closestAfter (b : Bool) : Change → Bool
  | closest b' => b'
  | _ => b

/-- The TTL of a label after a change. -/
def ttlAfter (n : Int) : Change → Int
  | ttl m => m
  | _ => n

/-- The health reference after a change. -/
def testAfter (ref : Option HealthReference) : Change → Option HealthReference
  | test ref' => some ref'
  | _ => ref

/-- The slots of type `t` after a change. -/
def slotsAfter (t : RRType) (slots : Option (List (Option Record))) :
    Change → Option (List (Option Record))
  | records t' slots' => if t = t' then some slots' else slots
  | _ => slots

/-- The weight of type `t` after a change. -/
def weightAfter (t : RRType) (w : Option Int64) : Change → Option Int64
  | records t' slots' => if t = t' then some (slotWeight slots') else w
  | _ => w

end Change

/-- A list of changes, each from the field that it belongs to. -/
structure FromFields (changes : List (Σ _ : String, Change)) : Prop where
  nodup : changes.NodupKeys
  belongs : ∀ e ∈ changes, e.2.At e.1

section
variable {changes : List (Σ _ : String, Change)} {l : RawLabel}

/-- The changes of a label are from its fields. -/
lemma fromFields_of_traverse {ext : Externals} {origin label dk : String}
    {es : List (Σ _ : String, Json)} (nodup : es.NodupKeys)
    (h : GoMap.traverseEntries (readChange ext origin label dk) es = .ok changes) :
    FromFields changes := by
  refine ⟨GoMap.nodupKeys_traverseEntries nodup h, ?_⟩
  intro e he
  obtain ⟨rdata, _, hread⟩ := GoMap.mem_traverseEntries nodup h he
  exact readChange_at hread

/-- All changes together keep the name of the label. -/
lemma applyAll_label (l : RawLabel) (changes : List (Σ _ : String, Change)) :
    (applyAll l changes).label = l.label := by
  induction changes generalizing l with
  | nil => rfl
  | cons e changes ih => exact (ih _).trans (e.2.apply_label l)

/-- A part of a label that only the field `key` sets is what that field has made of it. -/
lemma FromFields.part {τ : Type} (part : RawLabel → τ) (after : τ → Change → τ) (key : String)
    (step : ∀ l c, part (Change.apply l c) = after (part l) c)
    (skips : ∀ k c x, Change.At k c → k ≠ key → after x c = x) (fields : FromFields changes) :
    part (applyAll l changes) = (changes.dlookup key).elim (part l) (after (part l)) :=
  GoMap.foldl_part part after key step skips fields.nodup fields.belongs l

/-- The number of hosts is that of its field, or else the one from before. -/
lemma FromFields.maxHosts (fields : FromFields changes) : (applyAll l changes).maxHosts =
    (changes.dlookup "max_hosts").elim l.maxHosts (Change.maxHostsAfter l.maxHosts) := by
  apply fields.part LabelOf.maxHosts
  · intro l c
    cases c <;> rfl
  · intro k c x at_k ne
    cases c with
    | maxHosts n => exact (ne at_k).elim
    | _ => rfl

/-- The choice of the closest is that of its field, or else the one from before. -/
lemma FromFields.closest (fields : FromFields changes) : (applyAll l changes).closest =
    (changes.dlookup "closest").elim l.closest (Change.closestAfter l.closest) := by
  apply fields.part LabelOf.closest
  · intro l c
    cases c <;> rfl
  · intro k c x at_k ne
    cases c with
    | closest b => exact (ne at_k).elim
    | _ => rfl

/-- The time to live is that of its field, or else the one from before. -/
lemma FromFields.ttl (fields : FromFields changes) : (applyAll l changes).ttl =
    (changes.dlookup "ttl").elim l.ttl (Change.ttlAfter l.ttl) := by
  apply fields.part LabelOf.ttl
  · intro l c
    cases c <;> rfl
  · intro k c x at_k ne
    cases c with
    | ttl n => exact (ne at_k).elim
    | _ => rfl

/-- The health test is that of its field, or else the one from before. -/
lemma FromFields.test (fields : FromFields changes) : (applyAll l changes).test =
    (changes.dlookup "health").elim l.test (Change.testAfter l.test) := by
  apply fields.part LabelOf.test
  · intro l c
    cases c <;> rfl
  · intro k c x at_k ne
    cases c with
    | test ref => exact (ne at_k).elim
    | _ => rfl

/-- The records of a type are those of its field, or else those from before. -/
lemma FromFields.recordsOf (fields : FromFields changes) (t : RRType) :
    (applyAll l changes).recordsOf t =
      (changes.dlookup (typeName t)).elim (l.recordsOf t) (Change.slotsAfter t (l.recordsOf t)) := by
  apply fields.part (LabelOf.recordsOf · t)
  · intro l c
    cases c with
    | records t' slots => exact LabelOf.recordsOf_setRecords l t' t slots
    | _ => rfl
  · intro k c x at_k ne
    cases c with
    | records t' slots =>
      apply if_neg
      rintro rfl
      exact ne (typeName_of_recordTypes at_k)
    | _ => rfl

/-- The weight of a type is that of its field, or else the one from before. -/
lemma FromFields.weight (fields : FromFields changes) (t : RRType) :
    (applyAll l changes).weight.lookup t =
      (changes.dlookup (typeName t)).elim (l.weight.lookup t)
        (Change.weightAfter t (l.weight.lookup t)) := by
  apply fields.part (fun l => l.weight.lookup t)
  · intro l c
    cases c with
    | records t' slots => exact GoMap.lookup_insert_eq_ite l.weight t' t (slotWeight slots)
    | _ => rfl
  · intro k c x at_k ne
    cases c with
    | records t' slots =>
      apply if_neg
      rintro rfl
      exact ne (typeName_of_recordTypes at_k)
    | _ => rfl

/-- A label makes its zone one with nearest servers by its own flag alone. -/
lemma FromFields.any_closes (fields : FromFields changes) :
    changes.any (fun e => e.2.closes) = (changes.dlookup "closest").elim false Change.closes := by
  obtain ⟨nodup, belongs⟩ := fields
  induction changes with
  | nil => rfl
  | cons e changes ih =>
    obtain ⟨hnot, nodup⟩ := List.nodupKeys_cons.mp nodup
    rw [List.any_cons, ih nodup (fun e' he' => belongs e' (List.mem_cons_of_mem _ he'))]
    obtain ⟨k, c⟩ := e
    by_cases hk : k = "closest"
    · subst hk
      rw [List.dlookup_cons_eq, List.dlookup_eq_none.mpr hnot]
      exact Bool.or_false _
    · have at_k := belongs _ List.mem_cons_self
      have open_here : c.closes = false := by
        cases c with
        | closest b => exact (hk at_k).elim
        | _ => rfl
      have other : (⟨k, c⟩ :: changes : List (Σ _ : String, Change)).dlookup "closest" =
          changes.dlookup "closest" := List.dlookup_cons_ne _ _ (Ne.symm hk)
      rw [other, open_here, Bool.false_or]

end

/-! ## The labels of a zone -/

/-- What is read for one label, and whether it makes its zone one with nearest servers. -/
def labelOf (ext : Externals) (origin : String) (options : ZoneOptions) (dk : String) (dv : Json) :
    Res (RawLabel × Bool) := do
  let fields ← dv.asObj
  let changes ← GoMap.traverseEntries (readChange ext origin (toLower dk) dk) fields.entries
  return (applyAll (newLabel options dk) changes, changes.any (fun e => e.2.closes))

/-- The labels with what was read for each of them put in. -/
def insertAll (labels : GoMap String RawLabel) (read : List (Σ _ : String, RawLabel × Bool)) :
    GoMap String RawLabel :=
  read.foldl (fun labels e => labels.insert (toLower e.1) e.2.1) labels

/-- The keys of a data object are different names. -/
def DistinctKeys (data : GoMap String Json) : Prop :=
  ∀ k ∈ data, ∀ k' ∈ data, toLower k = toLower k' → k = k'

instance (data : GoMap String Json) : Decidable (DistinctKeys data) :=
  inferInstanceAs (Decidable (∀ k ∈ data.keys, ∀ k' ∈ data.keys, toLower k = toLower k' → k = k'))

/-- The zone `raw` has the labels that a data object describes, and is otherwise like `z`. -/
structure ReadFrom (ext : Externals) (data : GoMap String Json) (z raw : RawZone) : Prop where
  rest : raw = { z with labels := raw.labels, hasClosest := raw.hasClosest }
  labels : ∀ {k l}, raw.labels.lookup k = some l → ∃ dk dv b, data.lookup dk = some dv ∧
    toLower dk = k ∧ labelOf ext z.origin z.options dk dv = .ok (l, b)
  complete : ∀ {dk}, dk ∈ data → toLower dk ∈ raw.labels
  closest : raw.hasClosest = true ↔ z.hasClosest = true ∨ ∃ dk dv l, data.lookup dk = some dv ∧
    labelOf ext z.origin z.options dk dv = .ok (l, true)

section
variable {ext : Externals} {data : GoMap String Json} {z raw : RawZone}
variable {labels : GoMap String RawLabel} {read : List (Σ _ : String, RawLabel × Bool)}

/-- A label is put in with all its changes. -/
lemma readLabel_eq (dk : String) (dv : Json) :
    readLabel ext z dk dv =
      (fun r => { z with
        labels := z.labels.insert (toLower dk) r.1
        hasClosest := z.hasClosest || r.2 }) <$> labelOf ext z.origin z.options dk dv := by
  unfold readLabel labelOf
  cases dv.asObj with
  | panic p => rfl
  | diverge => rfl
  | ok fields =>
    rw [Res.ok_bind, Res.ok_bind, readFields_eq fields.nodupKeys (fun _ _ _ _ => rfl)]
    show _ = _ <$> (GoMap.traverseEntries (readChange ext z.origin (toLower dk) dk) fields.entries >>= _)
    have name : (newLabel z.options dk : RawLabel).label = toLower dk := rfl
    rw [name]
    cases GoMap.traverseEntries (readChange ext z.origin (toLower dk) dk) fields.entries with
    | ok changes => rfl
    | panic p => rfl
    | diverge => rfl

/-- The loop over the labels. -/
theorem readLabels_eq (es : List (Σ _ : String, Json)) :
    es.foldlM (fun z e => readLabel ext z e.1 e.2) z =
      (fun read => { z with
        labels := insertAll z.labels read
        hasClosest := z.hasClosest || read.any (fun e => e.2.2) }) <$>
        GoMap.traverseEntries (labelOf ext z.origin z.options) es := by
  induction es generalizing z with
  | nil => simp [GoMap.traverseEntries, insertAll]
  | cons e es ih =>
    rw [List.foldlM_cons, readLabel_eq, GoMap.traverseEntries]
    cases labelOf ext z.origin z.options e.1 e.2 with
    | panic p => rfl
    | diverge => rfl
    | ok r =>
      rw [Res.map_ok, Res.ok_bind, Res.ok_bind, ih]
      dsimp only
      cases GoMap.traverseEntries (labelOf ext z.origin z.options) es with
      | ok read => simp [insertAll, Bool.or_assoc]
      | panic p => rfl
      | diverge => rfl

/-- A label was there or has been put in. -/
lemma lookup_insertAll {k : String} {l : RawLabel} (h : (insertAll labels read).lookup k = some l) :
    labels.lookup k = some l ∨ ∃ e ∈ read, toLower e.1 = k ∧ e.2.1 = l := by
  induction read generalizing labels with
  | nil => exact .inl h
  | cons e read ih =>
    rcases ih h with h | ⟨e', he', h⟩
    · rw [GoMap.lookup_insert_eq_ite] at h
      split at h
      · rename_i hk
        cases h
        exact .inr ⟨e, List.mem_cons_self, hk.symm, rfl⟩
      · exact .inl h
    · exact .inr ⟨e', List.mem_cons_of_mem _ he', h⟩

/-- A label that was there is still there when others are put in. -/
lemma mem_insertAll_of_mem {k : String} (h : k ∈ labels) : k ∈ insertAll labels read := by
  induction read generalizing labels with
  | nil => exact h
  | cons e read ih => exact ih ((AList.mem_insert _).mpr (.inr h))

/-- A label that has been put in is there. -/
lemma mem_insertAll {e : Σ _ : String, RawLabel × Bool} (h : e ∈ read) :
    toLower e.1 ∈ insertAll labels read := by
  induction read generalizing labels with
  | nil => cases h
  | cons e' read ih =>
    rcases List.mem_cons.mp h with rfl | h
    · have mem : toLower e.1 ∈ labels.insert (toLower e.1) e.2.1 :=
        (AList.mem_insert labels).mpr (.inl rfl)
      show toLower e.1 ∈ insertAll (labels.insert (toLower e.1) e.2.1) read
      exact mem_insertAll_of_mem mem
    · exact ih h

/-- The first pass reads all labels of the data object, and nothing else. -/
theorem readLabels_readFrom (empty : z.labels = ∅) (ok : readLabels ext data z = .ok raw) :
    ReadFrom ext data z raw := by
  unfold readLabels at ok
  rw [readLabels_eq] at ok
  obtain ⟨read, hread, rfl⟩ := Res.map_eq_ok.mp ok
  have keys := GoMap.keys_traverseEntries hread
  refine ⟨rfl, ?_, ?_, ?_⟩
  · intro k l hl
    rw [empty] at hl
    rcases lookup_insertAll hl with hl | ⟨⟨dk, l', b⟩, he, hk, rfl⟩
    · cases hl
    · obtain ⟨dv, hdv, hr⟩ := GoMap.mem_traverseEntries data.nodupKeys hread he
      exact ⟨dk, dv, b, hdv, hk, hr⟩
  · intro dk hdk
    have mem : dk ∈ read.keys := by
      rw [keys]
      exact hdk
    obtain ⟨r, hr⟩ := List.exists_of_mem_keys mem
    have inserted : toLower (Sigma.mk dk r).1 ∈ insertAll z.labels read := mem_insertAll hr
    exact inserted
  · show (z.hasClosest || read.any (fun e => e.2.2)) = true ↔ _
    rw [Bool.or_eq_true, List.any_eq_true]
    apply or_congr_right
    constructor
    · rintro ⟨⟨dk, l, b⟩, he, rfl⟩
      obtain ⟨dv, hdv, hr⟩ := GoMap.mem_traverseEntries data.nodupKeys hread he
      exact ⟨dk, dv, l, hdv, hr⟩
    · rintro ⟨dk, dv, l, hdv, hr⟩
      rcases GoMap.dlookup_traverseEntries hread dk with ⟨hn, _⟩ | ⟨dv', r, hdv', hr', hl⟩
      · rw [AList.lookup, hn] at hdv
        cases hdv
      · rw [AList.lookup, hdv'] at hdv
        cases hdv
        rw [hr] at hl
        cases hl
        exact ⟨⟨dk, l, true⟩, List.of_mem_dlookup hr', rfl⟩

/-- The first pass returns if it does so for every label. -/
lemma readLabels_returns : (∃ raw, readLabels ext data z = .ok raw) ↔
    ∀ dk dv, data.lookup dk = some dv → ∃ r, labelOf ext z.origin z.options dk dv = .ok r := by
  unfold readLabels
  rw [readLabels_eq]
  refine Iff.trans ?_ (GoMap.traverseEntries_returns data.nodupKeys)
  constructor
  · rintro ⟨raw, h⟩
    obtain ⟨read, hread, _⟩ := Res.map_eq_ok.mp h
    exact ⟨read, hread⟩
  · rintro ⟨read, hread⟩
    exact ⟨_, Res.map_eq_ok.mpr ⟨read, hread, rfl⟩⟩

/-- With different names, each label of the data object is found under its own. -/
lemma ReadFrom.lookup (reads : ReadFrom ext data z raw) (distinct : DistinctKeys data) {dk : String}
    {dv : Json} {l : RawLabel} {b : Bool} (hdv : data.lookup dk = some dv)
    (hl : labelOf ext z.origin z.options dk dv = .ok (l, b)) :
    raw.labels.lookup (toLower dk) = some l := by
  have mem : dk ∈ data := AList.lookup_isSome.mp (by simp [hdv])
  obtain ⟨l', hl'⟩ := Option.isSome_iff_exists.mp (AList.lookup_isSome.mpr (reads.complete mem))
  obtain ⟨dk', dv', b', hdv', same, hr⟩ := reads.labels hl'
  have mem' : dk' ∈ data := AList.lookup_isSome.mp (by simp [hdv'])
  obtain rfl := distinct dk' mem' dk mem same
  rw [hdv] at hdv'
  cases hdv'
  rw [hl] at hr
  cases hr
  exact hl'

/-- The names of the labels are in small letters. -/
lemma ReadFrom.toLower (reads : ReadFrom ext data z raw) {k : String} (h : k ∈ raw.labels) :
    Lib.toLower k = k := by
  obtain ⟨l, hl⟩ := Option.isSome_iff_exists.mp (AList.lookup_isSome.mpr h)
  obtain ⟨dk, _, _, _, rfl, _⟩ := reads.labels hl
  exact toLower_toLower dk

end
end GeoDNS.Zones
