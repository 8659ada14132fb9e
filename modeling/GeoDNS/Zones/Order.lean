import GeoDNS.Zones.Reordered
import GeoDNS.Zones.SecondPass

/-!
# The order of map iteration

Go leaves the order of a `range` loop over a map open. The loader has such loops over the fields of the
document at every depth, over the labels of the zone in its second pass, where it also adds labels while
the loop is running, and over the records of each of them.

The order of the fields in a document stands for the order in which the loops come to them; the orders of
the second pass are given by a `Ranging`. Whatever the orders, a zone file is rejected, or it is accepted
with the same content (`readZoneFileIn_order`).
-/

namespace GeoDNS.Zones
open GeoDNS.Lib GeoDNS.Dns GeoDNS.Targeting

/-! ## The second pass, name by name -/

/-- The orders of the loops of the second pass. -/
structure Ranging where
  /-- The names that the loop over the labels comes to. A label that is added on the way may be among
      them, or not. -/
  labels : RawZone → List String
  complete : ∀ z, ∀ k ∈ z.labels, k ∈ labels z
  /-- The records of the label of this name in the order in which the loop comes to them. -/
  records : String → GoMap RRType (List (Option Record)) → GoMap RRType (List (Option Record))
  same : ∀ k m t, (records k m).lookup t = m.lookup t

/-- The state of the second pass: the labels that it has not come to yet, and the zone with those that it
    has finished or added. -/
structure Sweep where
  pending : GoMap String RawLabel
  zone : Zone

/-- Is there a label of this name? -/
def Sweep.has (p : Sweep) (s : String) : Prop :=
  s ∈ p.pending ∨ s ∈ p.zone.labels

instance (p : Sweep) (s : String) : Decidable (p.has s) :=
  inferInstanceAs (Decidable (_ ∨ _))

/-- Add a label that is missing. -/
def Sweep.addMissing (p : Sweep) (sub : String) : Sweep :=
  if p.has sub then p else { p with zone := p.zone.addLabel sub }

/-- Add the labels above the label `k` that are missing. -/
def Sweep.addSubLabels (p : Sweep) (k : String) : Sweep :=
  if contains k '.' then
    (split k '.').tails.tail.dropLast.foldl (fun p subLabels => p.addMissing (join subLabels '.')) p
  else p

/-- The pass comes to the name `k`. A label that it has added itself has no records yet. -/
def Sweep.visit (p : Sweep) (k : String) : Res Sweep :=
  match p.pending.lookup k with
  | some l => do
    let p := p.addSubLabels k
    let l ← finishLabel p.zone.options l
    return {
      pending := p.pending.erase k
      zone := { p.zone with labels := p.zone.labels.insert k l } }
  | none => .ok (if k ∈ p.zone.labels then p.addSubLabels k else p)

/-- The records of all labels in the order in which they are come to. -/
def Ranging.orderRecords (order : Ranging) (z : RawZone) : RawZone :=
  { z with labels := z.labels.mapVals (fun k l => { l with records := order.records k l.records }) }

/-- The second pass of `setupZoneData` in this order. -/
def finishLabelsIn (order : Ranging) (z : RawZone) : Res Zone := do
  let z := order.orderRecords z
  let p ← (order.labels z).foldlM Sweep.visit ⟨z.labels, { z with labels := ∅ }⟩
  return p.zone

/-- `setupZoneData` with some second pass. -/
def setupZoneDataBy (finish : RawZone → Res Zone) (ext : Externals) (data : GoMap String Json)
    (z : RawZone) : Res Zone := do
  let raw ← readLabels ext data z
  let z ← finish raw
  addSOA ext z

/-- The body of `ReadZoneFile` with some second pass. -/
def readZoneDocBy (finish : RawZone → Res Zone) (ext : Externals) (geo : Option Provider)
    (name fileName : String) (mtime : Int) (doc : Except String Json) : Res (Except String Zone) :=
  let zone : RawZone := newZone name
  let zone := { zone with options := { zone.options with serial := mtime / 1000000000 } }
  match doc.bind (topLevel fileName) with
  | .error err => .ok (.error err)
  | .ok objmap => do
    match ← readOptions objmap.entries zone ∅ with
    | .error err => return .error err
    | .ok (zone, data) =>
      let zone ← setupZoneDataBy finish ext data zone
      match geo with
      | some g => return .ok (if zone.hasClosest then zone.setLocations g else zone)
      | none => return .ok zone

/-- `ReadZoneFile` with some second pass. -/
def readZoneFileBy (finish : RawZone → Res Zone) (ext : Externals) (geo : Option Provider)
    (name fileName : String) (mtime : Int) (doc : Except String Json) : Except String Zone :=
  match readZoneDocBy finish ext geo name fileName mtime doc with
  | .ok r => r
  | .panic p => .error ("reading " ++ name ++ " failed: " ++ panicText p)
  | .diverge => .error ""

/-- Go `Zone.ReadZoneFile` with the loops of its second pass in this order. -/
def readZoneFileIn (order : Ranging) : Externals → Option Provider → String → String → Int →
    Except String Json → Except String Zone :=
  readZoneFileBy (finishLabelsIn order)

/-- Both results are errors, or both are zones of the same content. -/
inductive Alike : Except String Zone → Except String Zone → Prop
  | accepted {z z'} : SameZone z z' → Alike (.ok z) (.ok z')
  | rejected (err err') : Alike (.error err) (.error err')

/-- Where the second pass is after it has come to the names `visited`. -/
structure Visited (raw : RawZone) (visited : Set String) (p : Sweep) : Prop where
  rest : p.zone = { raw with labels := p.zone.labels }
  pending : ∀ {k}, k ∉ visited → p.pending.lookup k = raw.labels.lookup k
  gone : ∀ {k}, k ∈ visited → p.pending.lookup k = none
  later : ∀ {k}, k ∉ visited → k ∈ raw.labels → k ∉ p.zone.labels
  finished : ∀ {k l}, k ∈ visited → raw.labels.lookup k = some l →
    ∃ l', p.zone.labels.lookup k = some l' ∧ finishLabel raw.options l = .ok l'
  added : ∀ {k l}, k ∉ raw.labels → p.zone.labels.lookup k = some l →
    l = newLabel raw.options k ∧ ∃ k' ∈ raw.labels, Behind '.' k' k
  above : ∀ {k s}, k ∈ visited → k ∈ raw.labels → Behind '.' k s → p.has s

section
variable {raw : RawZone} {visited : Set String} {p p' : Sweep} {k s : String} {names : List String}

/-- At the start nothing is visited. -/
lemma visited_start (raw : RawZone) : Visited raw ∅ ⟨raw.labels, { raw with labels := ∅ }⟩ where
  rest := rfl
  pending := fun _ => rfl
  gone := fun h => h.elim
  later := fun _ _ h => AList.notMem_empty _ h
  finished := fun h => h.elim
  added := fun _ h => by simp at h
  above := fun h => h.elim

/-- The pass adds labels at names that stand above labels which were read. -/
lemma Visited.addMissing (inv : Visited raw visited p) (lower : toLower s = s)
    (behind : ∃ k' ∈ raw.labels, Behind '.' k' s) :
    Visited raw visited (p.addMissing s) ∧ (∀ k, p.has k → (p.addMissing s).has k) ∧
      (p.addMissing s).has s := by
  unfold Sweep.addMissing
  by_cases has : p.has s
  · rw [if_pos has]
    exact ⟨inv, fun _ => id, has⟩
  · rw [if_neg has]
    have lookup : ∀ k, (p.zone.addLabel s).labels.lookup k =
        if k = s then some (newLabel p.zone.options s) else p.zone.labels.lookup k := by
      intro k
      rw [ZoneOf.addLabel, lower, GoMap.lookup_insert_eq_ite]
    have options : p.zone.options = raw.options := by rw [inv.rest]
    have grows : ∀ k, k ∈ p.zone.labels → k ∈ (p.zone.addLabel s).labels := by
      intro k hk
      rw [← AList.lookup_isSome, lookup]
      split
      · rfl
      · exact AList.lookup_isSome.mpr hk
    -- the name is not one of those that were read
    have fresh : s ∉ raw.labels := by
      intro hs
      by_cases seen : s ∈ visited
      · obtain ⟨l, hl⟩ := Option.isSome_iff_exists.mp (AList.lookup_isSome.mpr hs)
        obtain ⟨l', hl', _⟩ := inv.finished seen hl
        exact has (.inr (AList.lookup_isSome.mp (by simp [hl'])))
      · apply has
        left
        rw [← AList.lookup_isSome, inv.pending seen]
        exact AList.lookup_isSome.mpr hs
    have ne : ∀ {k}, k ∈ raw.labels → k ≠ s := by
      rintro k hk rfl
      exact fresh hk
    have kept : ∀ k, p.has k →
        Sweep.has { p with zone := p.zone.addLabel s } k := fun k hk => hk.imp id (grows k)
    refine ⟨⟨?_, inv.pending, inv.gone, ?_, ?_, ?_, ?_⟩, kept, .inr ?_⟩
    · have rest := inv.rest
      dsimp only [ZoneOf.addLabel]
      rw [rest]
    · intro k hk hraw
      rw [← AList.lookup_eq_none, lookup, if_neg (ne hraw)]
      exact AList.lookup_eq_none.mpr (inv.later hk hraw)
    · intro k l hk hl
      have hraw : k ∈ raw.labels := AList.lookup_isSome.mp (by simp [hl])
      obtain ⟨l', hl', hfin⟩ := inv.finished hk hl
      exact ⟨l', by rw [lookup, if_neg (ne hraw), hl'], hfin⟩
    · intro k l hk hl
      rw [lookup] at hl
      split at hl
      · rename_i hks
        cases hl
        rw [options, hks]
        exact ⟨rfl, behind⟩
      · exact inv.added hk hl
    · intro k t hk hraw hbehind
      exact kept t (inv.above hk hraw hbehind)
    · rw [← AList.lookup_isSome, lookup, if_pos rfl]
      rfl

/-- Adding labels that are missing keeps what is visited. -/
lemma Visited.foldl_addMissing (inv : Visited raw visited p)
    (lower : ∀ s ∈ names, toLower s = s) (behind : ∀ s ∈ names, ∃ k' ∈ raw.labels, Behind '.' k' s) :
    Visited raw visited (names.foldl Sweep.addMissing p) ∧
      (∀ k, p.has k → (names.foldl Sweep.addMissing p).has k) ∧
      (names.foldl Sweep.addMissing p).pending = p.pending ∧
      ∀ s ∈ names, (names.foldl Sweep.addMissing p).has s := by
  induction names generalizing p with
  | nil => exact ⟨inv, fun _ => id, rfl, by simp⟩
  | cons s names ih =>
    obtain ⟨here, kept, has⟩ := inv.addMissing (lower s List.mem_cons_self) (behind s List.mem_cons_self)
    obtain ⟨inv', kept', pending', has'⟩ := ih here (fun t ht => lower t (List.mem_cons_of_mem _ ht))
      (fun t ht => behind t (List.mem_cons_of_mem _ ht))
    refine ⟨inv', fun k hk => kept' k (kept k hk), ?_, ?_⟩
    · rw [List.foldl_cons, pending', Sweep.addMissing]
      split <;> rfl
    · intro t ht
      rcases List.mem_cons.mp ht with rfl | ht
      · exact kept' t has
      · exact has' t ht

/-- The labels above a label are those that are behind a dot. -/
lemma Sweep.addSubLabels_eq (p : Sweep) (k : String) :
    p.addSubLabels k = (tailTexts k '.').foldl Sweep.addMissing p := by
  unfold Sweep.addSubLabels
  by_cases dot : contains k '.' = true
  · rw [if_pos dot, tailTexts, List.foldl_map]
  · rw [if_neg dot, tailTexts_eq_nil dot]
    rfl

/-- Adding the labels above a label keeps what is visited. -/
lemma Visited.addSubLabels (inv : Visited raw visited p) (lower : toLower k = k)
    (behind : ∀ s, Behind '.' k s → ∃ k' ∈ raw.labels, Behind '.' k' s) :
    Visited raw visited (p.addSubLabels k) ∧ (∀ s, p.has s → (p.addSubLabels k).has s) ∧
      (p.addSubLabels k).pending = p.pending ∧ ∀ s, Behind '.' k s → (p.addSubLabels k).has s := by
  rw [Sweep.addSubLabels_eq]
  have low : ∀ s ∈ tailTexts k '.', toLower s = s := fun s hs =>
    toLower_of_suffix (mem_tailTexts.mp hs).suffix lower
  obtain ⟨inv', kept, pending, has⟩ :=
    inv.foldl_addMissing low (fun s hs => behind s (mem_tailTexts.mp hs))
  exact ⟨inv', kept, pending, fun s hs => has s (mem_tailTexts.mpr hs)⟩

/-- A name that is in neither map is skipped, and one that the pass has dealt with changes nothing that
    matters. -/
lemma Visited.insert_of_not_pending (inv : Visited raw visited p) (none : p.pending.lookup k = none)
    (above : k ∈ raw.labels → ∀ s, Behind '.' k s → p.has s) :
    Visited raw (insert k visited) p := by
  -- a name of the zone that is not pending has been come to
  have seen : k ∈ raw.labels → k ∈ visited := by
    intro hraw
    by_contra unseen
    rw [inv.pending unseen] at none
    exact AList.lookup_eq_none.mp none hraw
  refine ⟨inv.rest, ?_, ?_, ?_, ?_, inv.added, ?_⟩
  · intro k' hk'
    exact inv.pending (fun h => hk' (.inr h))
  · rintro k' (rfl | hk')
    · exact none
    · exact inv.gone hk'
  · intro k' hk' hraw
    exact inv.later (fun h => hk' (.inr h)) hraw
  · rintro k' l (rfl | hk') hl
    · exact inv.finished (seen (AList.lookup_isSome.mp (by simp [hl]))) hl
    · exact inv.finished hk' hl
  · rintro k' s (rfl | hk') hraw behind
    · exact above hraw s behind
    · exact inv.above hk' hraw behind

/-- A label that is pending is one that was read, and the pass has not come to it. -/
lemma Visited.of_pending (inv : Visited raw visited p) {l : RawLabel} (hl : p.pending.lookup k = some l) :
    raw.labels.lookup k = some l ∧ k ∈ raw.labels := by
  have unseen : k ∉ visited := by
    intro h
    rw [inv.gone h] at hl
    cases hl
  rw [inv.pending unseen] at hl
  exact ⟨hl, AList.lookup_isSome.mp (by simp [hl])⟩

/-- A label that was read is finished, and moves from one map to the other. -/
lemma Visited.insert_finished (inv : Visited raw visited p) {l : RawLabel} {l' : Label}
    (hl : raw.labels.lookup k = some l) (hfin : finishLabel raw.options l = .ok l')
    (has : ∀ s, Behind '.' k s → p.has s) :
    Visited raw (insert k visited)
      ⟨p.pending.erase k, { p.zone with labels := p.zone.labels.insert k l' }⟩ := by
  have hraw : k ∈ raw.labels := AList.lookup_isSome.mp (by simp [hl])
  -- nothing is lost when the label moves
  have moved : ∀ s, p.has s → Sweep.has ⟨p.pending.erase k,
      { p.zone with labels := p.zone.labels.insert k l' }⟩ s := by
    intro s hs
    by_cases hsk : s = k
    · exact .inr ((AList.mem_insert _).mpr (.inl hsk))
    · rcases hs with hs | hs
      · exact .inl (AList.mem_erase.mpr ⟨hsk, hs⟩)
      · exact .inr ((AList.mem_insert _).mpr (.inr hs))
  refine ⟨?_, ?_, ?_, ?_, ?_, ?_, ?_⟩
  · have rest := inv.rest
    dsimp only
    rw [rest]
  · intro k' hk'
    have ne : k' ≠ k := fun h => hk' (.inl h)
    show (p.pending.erase k).lookup k' = _
    rw [GoMap.lookup_erase_eq_ite, if_neg ne]
    exact inv.pending (fun h => hk' (.inr h))
  · intro k' hk'
    show (p.pending.erase k).lookup k' = _
    rw [GoMap.lookup_erase_eq_ite]
    split
    · rfl
    · rename_i ne
      exact inv.gone (hk'.resolve_left ne)
  · intro k' hk' hraw'
    have ne : k' ≠ k := fun h => hk' (.inl h)
    show k' ∉ p.zone.labels.insert k l'
    rw [AList.mem_insert]
    rintro (h | h)
    · exact ne h
    · exact inv.later (fun h => hk' (.inr h)) hraw' h
  · intro k' m hk' hm
    show ∃ m', (p.zone.labels.insert k l').lookup k' = some m' ∧ _
    rw [GoMap.lookup_insert_eq_ite]
    split
    · rename_i same
      subst same
      rw [hl] at hm
      cases hm
      exact ⟨l', rfl, hfin⟩
    · rename_i ne
      exact inv.finished (hk'.resolve_left ne) hm
  · intro k' m hk' hm
    have ne : k' ≠ k := by
      rintro rfl
      exact hk' hraw
    have hm : (p.zone.labels.insert k l').lookup k' = some m := hm
    rw [GoMap.lookup_insert_eq_ite, if_neg ne] at hm
    exact inv.added hk' hm
  · rintro k' s (rfl | hk') hraw' behind
    · exact moved s (has s behind)
    · exact moved s (inv.above hk' hraw' behind)

/-- One turn of the second pass. -/
theorem Visited.visit (inv : Visited raw visited p) (lower : ∀ k ∈ raw.labels, toLower k = k)
    (ok : p.visit k = .ok p') : Visited raw (insert k visited) p' := by
  unfold Sweep.visit at ok
  cases hl : p.pending.lookup k with
  | none =>
    rw [hl] at ok
    cases ok
    split
    · rename_i hk
      -- the names above an added label stand above a label that was read, too
      by_cases hraw : k ∈ raw.labels
      · obtain ⟨inv', kept, pending, has⟩ := inv.addSubLabels (lower k hraw) (fun s hs => ⟨k, hraw, hs⟩)
        exact inv'.insert_of_not_pending (by rw [pending, hl]) (fun _ => has)
      · obtain ⟨l, hkl⟩ := Option.isSome_iff_exists.mp (AList.lookup_isSome.mpr hk)
        obtain ⟨_, k', hk', behind⟩ := inv.added hraw hkl
        have low := toLower_of_suffix behind.suffix (lower k' hk')
        obtain ⟨inv', kept, pending, has⟩ :=
          inv.addSubLabels low (fun s hs => ⟨k', hk', behind.trans hs⟩)
        exact inv'.insert_of_not_pending (by rw [pending, hl]) (fun _ => has)
    · rename_i hk
      refine inv.insert_of_not_pending hl (fun hraw => ?_)
      by_cases seen : k ∈ visited
      · exact fun s => inv.above seen hraw
      · rw [inv.pending seen] at hl
        exact (AList.lookup_eq_none.mp hl hraw).elim
  | some l =>
    rw [hl] at ok
    obtain ⟨hl, hraw⟩ := inv.of_pending hl
    obtain ⟨inv', _, _, has⟩ := inv.addSubLabels (lower k hraw) (fun s hs => ⟨k, hraw, hs⟩)
    obtain ⟨l', hfin, ok⟩ := Res.bind_eq_ok.mp ok
    cases ok
    have options : (p.addSubLabels k).zone.options = raw.options := by rw [inv'.rest]
    rw [options] at hfin
    exact inv'.insert_finished hl hfin has

/-- The whole pass. -/
lemma Visited.visits (inv : Visited raw visited p) (lower : ∀ k ∈ raw.labels, toLower k = k)
    (ok : names.foldlM Sweep.visit p = .ok p') : Visited raw (visited ∪ {k | k ∈ names}) p' := by
  induction names generalizing visited p with
  | nil =>
    cases ok
    simpa using inv
  | cons k names ih =>
    obtain ⟨q, hq, ok⟩ := Res.bind_eq_ok.mp ok
    have later := ih (inv.visit lower hq) ok
    have all : insert k visited ∪ {k | k ∈ names} = visited ∪ {k' | k' ∈ k :: names} := by
      ext k'
      simp only [Set.mem_union, Set.mem_insert_iff, Set.mem_ofPred_eq, List.mem_cons]
      tauto
    rwa [all] at later

/-- The visits return if every label can be finished. -/
lemma Visited.visits_returns (inv : Visited raw visited p) (lower : ∀ k ∈ raw.labels, toLower k = k)
    (returns : ∀ k l, raw.labels.lookup k = some l → ∃ l', finishLabel raw.options l = .ok l') :
    ∃ p', names.foldlM Sweep.visit p = .ok p' := by
  induction names generalizing visited p with
  | nil => exact ⟨p, rfl⟩
  | cons k names ih =>
    have here : ∃ q, p.visit k = .ok q := by
      unfold Sweep.visit
      cases hl : p.pending.lookup k with
      | none => exact ⟨_, rfl⟩
      | some l =>
        obtain ⟨hl, hraw⟩ := inv.of_pending hl
        obtain ⟨inv', _⟩ := inv.addSubLabels (lower k hraw) (fun s hs => ⟨k, hraw, hs⟩)
        have options : (p.addSubLabels k).zone.options = raw.options := by rw [inv'.rest]
        obtain ⟨l', hl'⟩ := returns k l hl
        dsimp only
        rw [options, hl']
        exact ⟨_, rfl⟩
    obtain ⟨q, hq⟩ := here
    obtain ⟨p', hp'⟩ := ih (inv.visit lower hq)
    exact ⟨p', Res.bind_eq_ok.mpr ⟨q, hq, hp'⟩⟩

/-- A pass that has come to all labels has finished the zone. -/
lemma Visited.finishes (inv : Visited raw visited p) (all : ∀ k ∈ raw.labels, k ∈ visited) :
    Finished raw p.zone := by
  refine ⟨inv.rest, ?_, ?_, ?_⟩
  · intro k l hl
    exact inv.finished (all k (AList.lookup_isSome.mp (by simp [hl]))) hl
  · rintro k hk ⟨k', hk', behind⟩
    rcases inv.above (all k' hk') hk' behind with pending | done
    · -- only labels that were read are pending
      by_cases seen : k ∈ visited
      · exact (AList.lookup_eq_none.mp (inv.gone seen) pending).elim
      · rw [← AList.lookup_isSome, inv.pending seen] at pending
        exact (hk (AList.lookup_isSome.mp pending)).elim
    · obtain ⟨l, hl⟩ := Option.isSome_iff_exists.mp (AList.lookup_isSome.mpr done)
      rw [hl, (inv.added hk hl).1]
  · intro k hk above
    cases hl : p.zone.labels.lookup k with
    | none => rfl
    | some l => exact (above (inv.added hk hl).2).elim

end

/-! ## The second pass in two orders -/

section
variable {ext : Externals} {raw raw' : RawZone} {z z' : Zone} {l l' : RawLabel}

/-- The same labels have the same weights. -/
lemma SameLabel.weightOf {ρ : Type} {l l' : LabelOf ρ} (same : SameLabel l l') (t : RRType) :
    l.weightOf t = l'.weightOf t := by
  rw [LabelOf.weightOf, LabelOf.weightOf, same.weight]

/-- The weight of the records of type `t` after the second pass. -/
def totalOf (l : RawLabel) (t : RRType) (slots : List (Option Record)) : Int64 :=
  if setsWeight l t then l.weightOf t + Int64.ofNat slots.length else l.weightOf t

/-- Two labels that differ in their slots at most, and whose slots come to the same records. -/
structure FinishAlike (options : ZoneOptions) (l l' : RawLabel) : Prop where
  label : l.label = l'.label
  maxHosts : l.maxHosts = l'.maxHosts
  ttl : l.ttl = l'.ttl
  slots : ∀ t, Option.Rel (fun slots slots' =>
    slots.mapM (finishRecord options.ttl l.ttl (setsWeight l t)) =
      slots'.mapM (finishRecord options.ttl l'.ttl (setsWeight l' t)) ∧
    totalOf l t slots = totalOf l' t slots') (l.recordsOf t) (l'.recordsOf t)
  weight : ∀ t, l.recordsOf t = none → l.weight.lookup t = l'.weight.lookup t
  closest : l.closest = l'.closest
  test : l.test = l'.test

/-- Such labels are finished alike. -/
lemma FinishAlike.agree {options : ZoneOptions} (alike : FinishAlike options l l') :
    Res.Agree SameLabel (finishLabel options l) (finishLabel options l') := by
  have records : Res.Agree (fun xs ys => ∀ t, Option.Rel Eq (xs.lookup t) (ys.lookup t))
      (l.records.traverse (fun t slots =>
        slots.mapM (finishRecord options.ttl l.ttl (setsWeight l t))))
      (l'.records.traverse (fun t slots =>
        slots.mapM (finishRecord options.ttl l'.ttl (setsWeight l' t)))) := by
    apply GoMap.traverse_agree alike.slots
    rintro t slots slots' ⟨finishes, _⟩
    exact .of_eq (fun _ => rfl) finishes
  refine records.bind (fun xs ys equal => .ok ?_)
  refine ⟨alike.label, alike.maxHosts, alike.ttl, ?_, ?_, alike.closest, alike.test⟩
  · exact fun t => eq_of_rel (equal t) (fun _ _ e => e)
  · intro t
    have mem : t ∈ l.records ↔ t ∈ l'.records := GoMap.mem_iff_of_rel (alike.slots t)
    have totals : ∀ {l : RawLabel} {f : RRType → List (Option Record) → Int64},
        t ∈ l.records.mapVals f ↔ t ∈ l.records := by
      intro l f
      rw [← AList.lookup_isSome, ← AList.lookup_isSome, GoMap.lookup_mapVals, Option.isSome_map]
    dsimp only
    by_cases ht : t ∈ l.records
    · rw [AList.lookup_union_left (totals.mpr ht), AList.lookup_union_left (totals.mpr (mem.mp ht)),
        GoMap.lookup_mapVals, GoMap.lookup_mapVals]
      obtain ⟨slots, hslots⟩ := Option.isSome_iff_exists.mp (AList.lookup_isSome.mpr ht)
      obtain ⟨slots', hslots', _, total⟩ := rel_right (alike.slots t) hslots
      have hslots' : l'.records.lookup t = some slots' := hslots'
      rw [hslots, hslots']
      exact congrArg some total
    · rw [AList.lookup_union_right (fun h => ht (totals.mp h)),
        AList.lookup_union_right (fun h => ht (mem.mpr (totals.mp h)))]
      exact alike.weight t (AList.lookup_eq_none.mpr ht)

/-- Finishing a label does not depend on the order of its records. -/
lemma finishLabel_agree (same : SameLabel l l') (options : ZoneOptions) :
    Res.Agree SameLabel (finishLabel options l) (finishLabel options l') := by
  have sets : ∀ t, setsWeight l t = setsWeight l' t := by
    intro t
    rw [setsWeight, setsWeight, same.weightOf]
  refine FinishAlike.agree ⟨same.label, same.maxHosts, same.ttl, ?_, fun t _ => same.weight t,
    same.closest, same.test⟩
  intro t
  rw [same.records]
  cases l'.recordsOf t with
  | none => exact .none
  | some slots =>
    refine .some ⟨by rw [same.ttl, sets], ?_⟩
    rw [totalOf, totalOf, sets, same.weightOf]

/-- What the second pass leaves behind depends on how the labels are finished alone. -/
lemma Finished.same_of_labels (fin : Finished raw z) (fin' : Finished raw' z')
    (rest : raw' = { raw with labels := raw'.labels, logging := raw'.logging })
    (labels : ∀ k, Option.Rel (fun l l' =>
      Res.Agree SameLabel (finishLabel raw.options l) (finishLabel raw.options l'))
      (raw.labels.lookup k) (raw'.labels.lookup k)) : SameZone z z' := by
  have names : ∀ {k}, k ∈ raw.labels ↔ k ∈ raw'.labels := GoMap.mem_iff_of_rel (labels _)
  have options : raw'.options = raw.options := by rw [rest]
  rw [fin.rest, fin'.rest, rest]
  refine ⟨rfl, ?_, rfl, rfl, rfl, rfl⟩
  intro k
  show Option.Rel SameLabel (z.labels.lookup k) (z'.labels.lookup k)
  by_cases hk : k ∈ raw.labels
  · obtain ⟨l, hl⟩ := Option.isSome_iff_exists.mp (AList.lookup_isSome.mpr hk)
    obtain ⟨l', hl', agree⟩ := rel_right (labels k) hl
    obtain ⟨m, hm, hfin⟩ := fin.read hl
    obtain ⟨m', hm', hfin'⟩ := fin'.read hl'
    rw [options] at hfin'
    rw [hfin, hfin'] at agree
    rw [hm, hm']
    exact .some agree.related
  · have hk' : k ∉ raw'.labels := fun h => hk (names.mpr h)
    have behind : (∃ k' ∈ raw.labels, Behind '.' k' k) ↔ ∃ k' ∈ raw'.labels, Behind '.' k' k := by
      simp only [names]
    by_cases above : ∃ k' ∈ raw.labels, Behind '.' k' k
    · rw [fin.added hk above, fin'.added hk' (behind.mp above), options]
      exact .some (.refl _)
    · rw [fin.absent hk above, fin'.absent hk' (fun h => above (behind.mpr h))]
      exact .none

/-- What the second pass leaves behind depends on what was read alone. -/
lemma Finished.same (zones : SameZone raw raw') (fin : Finished raw z) (fin' : Finished raw' z') :
    SameZone z z' := by
  apply fin.same_of_labels fin'
  · obtain ⟨origin, _, labelCount, options, hasClosest, parseIP⟩ := zones
    cases raw
    cases raw'
    simp only at origin labelCount options hasClosest parseIP
    simp only [origin, labelCount, options, hasClosest, parseIP]
  · exact fun k => rel_mono (zones.labels k) (fun _ _ same => finishLabel_agree same _)

/-- When the labels of one zone can be finished, those of the other can. -/
lemma finishLabel_returns_iff (zones : SameZone raw raw') :
    (∀ k l, raw.labels.lookup k = some l → ∃ m, finishLabel raw.options l = .ok m) ↔
      ∀ k l, raw'.labels.lookup k = some l → ∃ m, finishLabel raw'.options l = .ok m := by
  rw [← zones.options]
  constructor
  · intro h k l' hl'
    obtain ⟨l, hl, same⟩ := rel_left (zones.labels k) hl'
    exact (finishLabel_agree same _).returns_iff.mp (h k l hl)
  · intro h k l hl
    obtain ⟨l', hl', same⟩ := rel_right (zones.labels k) hl
    exact (finishLabel_agree same _).returns_iff.mpr (h k l' hl')

/-- The order in which records are gone through does not change them. -/
lemma Ranging.orderRecords_same (order : Ranging) (raw : RawZone) :
    SameZone (order.orderRecords raw) raw := by
  refine ⟨rfl, ?_, rfl, rfl, rfl, rfl⟩
  intro k
  show Option.Rel SameLabel ((raw.labels.mapVals _).lookup k) _
  rw [GoMap.lookup_mapVals]
  cases raw.labels.lookup k with
  | none => exact .none
  | some l => exact .some ⟨rfl, rfl, rfl, order.same k l.records, fun _ => rfl, rfl, rfl⟩

/-- The second pass in some order. -/
lemma finishLabelsIn_spec (order : Ranging) (lower : ∀ k ∈ raw.labels, toLower k = k) :
    (∀ z, finishLabelsIn order raw = .ok z → Finished (order.orderRecords raw) z) ∧
      ((∃ z, finishLabelsIn order raw = .ok z) ↔
        ∀ k l, raw.labels.lookup k = some l → ∃ m, finishLabel raw.options l = .ok m) := by
  have ordered := order.orderRecords_same raw
  have lower' : ∀ k ∈ (order.orderRecords raw).labels, toLower k = k := by
    intro k hk
    exact lower k ((GoMap.mem_iff_of_rel (ordered.labels k)).mp hk)
  have finished : ∀ z, finishLabelsIn order raw = .ok z → Finished (order.orderRecords raw) z := by
    intro z ok
    obtain ⟨p, hp, ok⟩ := Res.bind_eq_ok.mp ok
    cases ok
    exact ((visited_start _).visits lower' hp).finishes (fun k hk => .inr (order.complete _ k hk))
  refine ⟨finished, ?_⟩
  rw [← finishLabel_returns_iff ordered]
  constructor
  · rintro ⟨z, ok⟩ k l hl
    obtain ⟨m, _, hm⟩ := (finished z ok).read hl
    exact ⟨m, hm⟩
  · intro returns
    obtain ⟨p, hp⟩ := (visited_start (order.orderRecords raw)).visits_returns lower' returns
    exact ⟨p.zone, Res.bind_eq_ok.mpr ⟨p, hp, rfl⟩⟩

/-- The second pass does not depend on the order. -/
theorem finishLabelsIn_agree (order order' : Ranging) (zones : SameZone raw raw')
    (lower : ∀ k ∈ raw.labels, toLower k = k) :
    Res.Agree SameZone (finishLabelsIn order raw) (finishLabelsIn order' raw') := by
  have lower' : ∀ k ∈ raw'.labels, toLower k = k := by
    intro k hk
    exact lower k ((GoMap.mem_iff_of_rel (zones.labels k)).mpr hk)
  obtain ⟨finished, returns⟩ := finishLabelsIn_spec order lower
  obtain ⟨finished', returns'⟩ := finishLabelsIn_spec order' lower'
  apply Res.Agree.of_returns
  · rw [returns, returns', finishLabel_returns_iff zones]
  · intro z z' ok ok'
    have ordered := (order.orderRecords_same raw).trans (zones.trans (order'.orderRecords_same raw').symm)
    exact Finished.same ordered (finished z ok) (finished' z' ok')

/-- The second pass as the model of the loader runs it: first over the labels that were read, then adding
    the missing ones. -/
theorem finishLabels_agree (order : Ranging) (zones : SameZone raw raw')
    (lower : ∀ k ∈ raw.labels, toLower k = k) :
    Res.Agree SameZone (finishLabels raw) (finishLabelsIn order raw') := by
  have lower' : ∀ k ∈ raw'.labels, toLower k = k := by
    intro k hk
    exact lower k ((GoMap.mem_iff_of_rel (zones.labels k)).mpr hk)
  obtain ⟨finished', returns'⟩ := finishLabelsIn_spec order lower'
  apply Res.Agree.of_returns
  · rw [returns', ← finishLabel_returns_iff zones, ← traverse_finishLabel_returns]
    constructor
    · rintro ⟨z, ok⟩
      obtain ⟨labels, hl, _⟩ := Res.bind_eq_ok.mp ok
      exact ⟨labels, hl⟩
    · rintro ⟨labels, hl⟩
      exact ⟨_, Res.bind_eq_ok.mpr ⟨labels, hl, rfl⟩⟩
  · intro z z' ok ok'
    have ordered := zones.trans (order.orderRecords_same raw').symm
    exact Finished.same ordered (finishLabels_finished lower ok) (finished' z' ok')

/-! ## The rest of the loader -/

/-- The same labels stay the same when the same records are put in. -/
lemma SameLabel.setRecords {ρ : Type} {l l' : LabelOf ρ} (same : SameLabel l l') (t : RRType)
    (rs : List ρ) : SameLabel (l.setRecords t rs) (l'.setRecords t rs) := by
  refine ⟨same.label, same.maxHosts, same.ttl, ?_, same.weight, same.closest, same.test⟩
  intro t'
  rw [LabelOf.recordsOf_setRecords, LabelOf.recordsOf_setRecords, same.records]

/-- The `SOA` record depends on the options of the zone and the name servers of the zone itself. -/
lemma addSOA_agree (zones : SameZone z z') : Res.Agree SameZone (addSOA ext z) (addSOA ext z') := by
  have label : SameLabel ((z.labels.lookup "").getD (newLabel z.options ""))
      ((z'.labels.lookup "").getD (newLabel z'.options "")) := by
    have rel := zones.labels ""
    rw [zones.options]
    generalize z.labels.lookup "" = a at rel ⊢
    generalize z'.labels.lookup "" = b at rel ⊢
    cases rel with
    | none => exact .refl _
    | some h => exact h
  unfold addSOA
  generalize (z.labels.lookup "").getD (newLabel z.options "") = l at label ⊢
  generalize (z'.labels.lookup "").getD (newLabel z'.options "") = l' at label ⊢
  have ns : primaryNs l = primaryNs l' := by rw [primaryNs, primaryNs, label.records]
  dsimp only
  rw [ns]
  refine (Res.Agree.refl (fun _ => rfl) (primaryNs l')).bind ?_
  rintro server _ rfl
  rw [zones.origin, zones.options]
  cases ext.newRR (soaText z'.origin z'.options server) with
  | error err => exact .fail (fun _ h => by cases h) (fun _ h => by cases h)
  | ok rr =>
    refine .ok ⟨rfl, ?_, zones.labelCount, rfl, zones.hasClosest, zones.parseIP⟩
    intro k
    dsimp only
    rw [GoMap.lookup_insert_eq_ite, GoMap.lookup_insert_eq_ite]
    split
    · exact .some (label.setRecords _ _)
    · exact zones.labels k

/-- Looking up the places of addresses. -/
lemma SameZone.setLocations (zones : SameZone z z') (g : Provider) :
    SameZone (z.setLocations g) (z'.setLocations g) := by
  refine ⟨zones.origin, ?_, zones.labelCount, zones.options, zones.hasClosest, zones.parseIP⟩
  intro k
  have rel := zones.labels k
  dsimp only [ZoneOf.setLocations]
  rw [GoMap.lookup_mapVals, GoMap.lookup_mapVals]
  generalize z.labels.lookup k = a at rel ⊢
  generalize z'.labels.lookup k = b at rel ⊢
  cases rel with
  | none => exact .none
  | @some l l' same =>
    refine .some ?_
    dsimp only [LabelOf.locate]
    rw [same.closest]
    split
    · refine ⟨same.label, same.maxHosts, same.ttl, ?_, same.weight, rfl, same.test⟩
      intro t
      have records : l.records.lookup t = l'.records.lookup t := same.records t
      show (l.records.mapVals _).lookup t = (l'.records.mapVals _).lookup t
      rw [GoMap.lookup_mapVals, GoMap.lookup_mapVals, records]
    · exact same

end

/-! ## Zone files -/

section
variable {ext : Externals} {geo : Option Provider} {name fileName : String} {mtime : Int}
variable {doc doc' : Json} {finish finish' : RawZone → Res Zone}

/-- The setup of the same data agrees if the second passes do. -/
lemma setupZoneDataBy_agree {data data' : GoMap String Json} {z z' : RawZone}
    (finishes : ∀ {raw raw' : RawZone}, SameZone raw raw' → (∀ k ∈ raw.labels, toLower k = k) →
      Res.Agree SameZone (finish raw) (finish' raw'))
    (same : Json.SameFields data data') (distinct : DistinctKeys data) (ns : AllNsListed data)
    (zones : SameZone z z') (empty : z.labels = ∅) (empty' : z'.labels = ∅) :
    Res.Agree SameZone (setupZoneDataBy finish ext data z) (setupZoneDataBy finish' ext data' z') := by
  have read : Res.Agree SameZone (readLabels ext data z) (readLabels ext data' z') :=
    readLabels_agree same distinct ns zones empty empty'
  refine read.with_eq.bind ?_
  rintro raw raw' ⟨raws, hraw, _⟩
  have reads := readLabels_readFrom empty hraw
  refine (finishes raws (fun _ h => reads.toLower h)).bind ?_
  exact fun _ _ => addSOA_agree

/-- The same files have the same fields or the same error. -/
lemma topLevel_same (same : doc.Same doc') :
    (∃ m m', topLevel fileName doc = .ok m ∧ topLevel fileName doc' = .ok m' ∧ Json.SameFields m m') ∨
      ∃ err, topLevel fileName doc = .error err ∧ topLevel fileName doc' = .error err := by
  cases same with
  | null => exact .inl ⟨∅, ∅, rfl, rfl, .refl ∅⟩
  | obj fields => exact .inl ⟨_, _, rfl, rfl, fields⟩
  | _ => exact .inr ⟨_, rfl, rfl⟩

/-- The zone that the fields of a document are read into. -/
def startZone (name : String) (mtime : Int) : RawZone :=
  let zone : RawZone := newZone name
  { zone with options := { zone.options with serial := mtime / 1000000000 } }

/-- The zone with the places of its addresses, if they are needed and there is a provider. -/
def located (geo : Option Provider) (z : Zone) : Zone :=
  match geo with
  | some g => if z.hasClosest then z.setLocations g else z
  | none => z

/-- What is accepted of a file is made of its options and its labels. -/
lemma accepted_readZoneDocBy {m : GoMap String Json} (htop : topLevel fileName doc = .ok m) :
    accepted (readZoneDocBy finish ext geo name fileName mtime (.ok doc)) =
      accepted (readOptions m.entries (startZone name mtime) ∅) >>= fun st =>
        located geo <$> setupZoneDataBy finish ext st.2 st.1 := by
  unfold readZoneDocBy
  dsimp only [Except.bind]
  rw [htop]
  show accepted (readOptions m.entries (startZone name mtime) ∅ >>= _) = _
  cases readOptions m.entries (startZone name mtime) ∅ with
  | panic p => rfl
  | diverge => rfl
  | ok r =>
    cases r with
    | error err => rfl
    | ok st =>
      obtain ⟨zone, data⟩ := st
      show accepted (setupZoneDataBy finish ext data zone >>= _) =
        located geo <$> setupZoneDataBy finish ext data zone
      cases setupZoneDataBy finish ext data zone with
      | panic p => rfl
      | diverge => rfl
      | ok z => cases geo <;> rfl

/-- Places in the same zones are the same. -/
lemma SameZone.located {z z' : Zone} (zones : SameZone z z') :
    SameZone (located geo z) (located geo z') := by
  unfold Zones.located
  cases geo with
  | none => exact zones
  | some g =>
    dsimp only
    rw [zones.hasClosest]
    split
    · exact zones.setLocations g
    · exact zones

/-- `ReadZoneFile` recovers from panics. -/
def recovered (text : Panic → String) : Res (Except String Zone) → Except String Zone
  | .ok r => r
  | .panic p => .error (text p)
  | .diverge => .error ""

/-- Errors and panics both reject. -/
lemma alike_recovered (text text' : Panic → String) {x y : Res (Except String Zone)}
    (agree : Res.Agree SameZone (accepted x) (accepted y)) :
    Alike (recovered text x) (recovered text' y) := by
  have rejects : ∀ (text : Panic → String) {x : Res (Except String Zone)},
      (∀ z, accepted x ≠ .ok z) → ∃ err, recovered text x = .error err := by
    intro text x none
    cases x with
    | ok r =>
      cases r with
      | ok z => exact (none z rfl).elim
      | error err => exact ⟨err, rfl⟩
    | panic p => exact ⟨text p, rfl⟩
    | diverge => exact ⟨"", rfl⟩
  by_cases hx : ∃ z, accepted x = .ok z
  · obtain ⟨z, hz⟩ := hx
    obtain ⟨z', hz', zones⟩ := agree.right hz
    rw [accepted_eq_ok.mp hz, accepted_eq_ok.mp hz']
    exact .accepted zones
  · obtain ⟨err, he⟩ := rejects text (fun z hz => hx ⟨z, hz⟩)
    obtain ⟨err', he'⟩ := rejects text' (fun z hz => hx (agree.returns_iff.mpr ⟨z, hz⟩))
    rw [he, he']
    exact .rejected err err'

/-- Two second passes that agree lead to zone files that are read alike. -/
theorem readZoneFileBy_alike
    (finishes : ∀ {raw raw' : RawZone}, SameZone raw raw' → (∀ k ∈ raw.labels, toLower k = k) →
      Res.Agree SameZone (finish raw) (finish' raw'))
    (same : doc.Same doc') (distinct : DistinctKeys (dataOf doc)) (ns : AllNsListed (dataOf doc)) :
    Alike (readZoneFileBy finish ext geo name fileName mtime (.ok doc))
      (readZoneFileBy finish' ext geo name fileName mtime (.ok doc')) := by
  refine alike_recovered (fun p => "reading " ++ name ++ " failed: " ++ panicText p)
    (fun p => "reading " ++ name ++ " failed: " ++ panicText p) ?_
  have top : (∃ m m', topLevel fileName doc = .ok m ∧ topLevel fileName doc' = .ok m' ∧
      Json.SameFields m m') ∨
        ∃ err, topLevel fileName doc = .error err ∧ topLevel fileName doc' = .error err :=
    topLevel_same same
  rcases top with ⟨m, m', hm, hm', fields⟩ | ⟨err, he, he'⟩
  · rw [accepted_readZoneDocBy hm, accepted_readZoneDocBy hm']
    have options := readOptions_agree fields (z := startZone name mtime) rfl
    refine options.with_eq.bind ?_
    rintro ⟨z, data⟩ ⟨z', data'⟩ ⟨states, h, _⟩
    -- the data object is that of the document
    obtain rfl := readOptions_dataOf hm (accepted_eq_ok.mp h)
    have setup : Res.Agree SameZone (setupZoneDataBy finish ext _ z) (setupZoneDataBy finish' ext data' z') :=
      setupZoneDataBy_agree finishes states.data distinct ns states.zones states.empty states.empty'
    exact setup.map (fun _ _ zones => zones.located)
  · have rejects : ∀ {finish : RawZone → Res Zone} {doc : Json}, topLevel fileName doc = .error err →
        readZoneDocBy finish ext geo name fileName mtime (.ok doc) = .ok (.error err) := by
      intro finish doc h
      unfold readZoneDocBy
      dsimp only [Except.bind]
      rw [h]
    rw [rejects he, rejects he']
    exact .fail (fun _ h => by cases h) (fun _ h => by cases h)

/-- The model of the loader, with its two separate loops in the second pass, reads a file as the loader
    does in any order. -/
theorem readZoneFile_alike (order : Ranging) (same : doc.Same doc')
    (distinct : DistinctKeys (dataOf doc)) (ns : AllNsListed (dataOf doc)) :
    Alike (readZoneFile ext geo name fileName mtime (.ok doc))
      (readZoneFileIn order ext geo name fileName mtime (.ok doc')) := by
  show Alike (readZoneFileBy finishLabels ext geo name fileName mtime (.ok doc)) _
  exact readZoneFileBy_alike (finishLabels_agree order) same distinct ns

/-- Loading a zone file does not depend on the order in which its loops come to the entries of maps: not
    on the order of the fields in the document and its parts, nor on that of the labels and of their
    records in the second pass. -/
theorem readZoneFileIn_order (order order' : Ranging) (same : doc.Same doc')
    (distinct : DistinctKeys (dataOf doc)) (ns : AllNsListed (dataOf doc)) :
    Alike (readZoneFileIn order ext geo name fileName mtime (.ok doc))
      (readZoneFileIn order' ext geo name fileName mtime (.ok doc')) :=
  readZoneFileBy_alike (finishLabelsIn_agree order order') same distinct ns

/-- The labels in the order in which they were read. -/
def inOrder : Ranging where
  labels z := z.labels.keys
  complete _ _ h := h
  records _ m := m
  same _ _ _ := rfl

/-- The labels in the opposite order; the name `eu` is come to as well if it has been added by then. -/
def backwards : Ranging where
  labels z := z.labels.keys.reverse ++ ["eu"]
  complete _ _ h := List.mem_append_left _ (List.mem_reverse.mpr h)
  records _ m := m
  same _ _ _ := rfl

/-- A zone file and the same file with its options after its data, read in opposite orders. -/
theorem small_file_order :
    let data := Json.obj [("", .obj [("ns", .arr [.str "ns1.example.net"])]),
      ("www.eu", .obj [("a", .arr [.arr [.str "192.0.2.1"]]), ("ttl", .str "60")])]
    let doc := Json.obj [("ttl", .str "600"), ("data", data)]
    let doc' := Json.obj [("data", data), ("ttl", .str "600")]
    (∃ z, readZoneFileIn inOrder smallExternals none "example.com" "example.com.json" 0 (.ok doc) = .ok z) ∧
      Alike (readZoneFileIn inOrder smallExternals none "example.com" "example.com.json" 0 (.ok doc))
        (readZoneFileIn backwards smallExternals none "example.com" "example.com.json" 0 (.ok doc')) := by
  intro data doc doc'
  have same : doc.Same doc' := .of_perm (.swap _ _ _) (by decide)
  have distinct : DistinctKeys (dataOf doc) := by decide +kernel
  have ns : AllNsListed (dataOf doc) := by
    intro dk dv hdv fields hfields l
    have mem := GoMap.mem_entries_iff.mpr hdv
    rcases mem with _ | ⟨_, _ | ⟨_, mem⟩⟩
    · cases hfields
      intro h
      cases h
    · cases hfields
      intro h
      cases h
    · cases mem
  exact ⟨⟨_, rfl⟩, readZoneFileIn_order inOrder backwards same distinct ns⟩

end
end GeoDNS.Zones
