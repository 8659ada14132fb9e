import GeoDNS.Zones.Termination

/-!
# What the lookup finds

The matches of a lookup that returns, as a set: it collects the matches that each name on the way
along the aliases has of its own (`OwnMatch`), and a label found without any match of its own below it
stands for itself with type 0 (`mem_of_value`, `ownMatch_mem`, `value_eq_nil_iff`).

From this follows which zones and queries are safe. A label match carries a pointer to a label, and the
callers of `FindLabels` use it without a check. It is nil for a query of type `ANY` when a target has a
label but the name itself has none, and a lookup panics at an empty array of aliases;
`findLabels_safe_iff` says that nothing else can go wrong.
-/

namespace GeoDNS.Zones
open GeoDNS.Lib GeoDNS.Dns Relation

/-- The aliases that the lookup of `s` follows lead to `a`. -/
def AliasReach (z : Zone) (targets : List String) (qts : List RRType) (s a : String) : Prop :=
  ReflTransGen (fun a b => typeMF ∈ qts ∧ AliasEdge z targets a b) s a

/-- A match that the name `a` has of its own, at the label of some target. -/
inductive OwnMatch (z : Zone) (targets : List String) (qts : List RRType) (a : String) :
    LabelMatch → Prop
  | any {t} : typeANY ∈ qts → t ∈ targets → targetName a t ∈ z.labels →
      OwnMatch z targets qts a ⟨z.labels.lookup a, typeANY⟩
  | records {t l q r rs} : q ∈ qts → q ≠ typeANY → q ≠ typeMF → t ∈ targets →
      z.labels.lookup (targetName a t) = some l → l.recordsOf q = some (r :: rs) →
      OwnMatch z targets qts a ⟨some l, q⟩

section
variable {z : Zone} {targets : List String} {qts : List RRType} {s a : String}
variable {r : List LabelMatch} {m : LabelMatch}

/-- For `ANY` the label of the name itself matches. -/
lemma matchType_any (f : String → Res (List LabelMatch)) (l : Label) :
    matchType z f s l typeANY = .ok [⟨z.labels.lookup s, typeANY⟩] :=
  if_pos rfl

/-- For other types it is the label of the target, if it has records. -/
lemma matchType_records {f : String → Res (List LabelMatch)} {l : Label} {q : RRType}
    (hany : q ≠ typeANY) (hmf : q ≠ typeMF) (hm : ∃ x, matchType z f s l q = .ok x ∧ m ∈ x) :
    (∃ r rs, l.recordsOf q = some (r :: rs)) ∧ m = ⟨some l, q⟩ := by
  obtain ⟨x, hx, hm⟩ := hm
  simp only [matchType, hany, hmf, if_false] at hx
  rcases hr : l.recordsOf q with _ | _ | ⟨r, rs⟩
  · simp only [hr] at hx
    cases hx
    cases hm
  · simp only [hr] at hx
    cases hx
    cases hm
  · simp only [hr] at hx
    cases hx
    exact ⟨⟨r, rs, rfl⟩, List.mem_singleton.mp hm⟩

/-- Every match comes from a name on the way: it is its own, or it is the name's label itself. -/
theorem mem_of_value (h : (lookupRec z targets qts).value s = .ok r) (hm : m ∈ r) :
    ∃ a, AliasReach z targets qts s a ∧ (OwnMatch z targets qts a m ∨
      ∃ l, z.labels.lookup a = some l ∧ m = ⟨some l, 0⟩) := by
  revert m
  refine (lookupRec z targets qts).value_induction (motive := fun s r => ∀ {m}, m ∈ r →
    ∃ a, AliasReach z targets qts s a ∧ (OwnMatch z targets qts a m ∨
      ∃ l, z.labels.lookup a = some l ∧ m = ⟨some l, 0⟩)) ?_ h
  intro s r hr ih m hm
  rcases findBody_mem hr hm with ⟨t, ht, l, hl, q, hq, x, hx, hmx⟩ | here
  · by_cases hmf : q = typeMF
    · -- a match found along an alias
      subst hmf
      rw [matchType_mf] at hx
      cases he : aliasEntry l with
      | none =>
        rw [he] at hx
        cases hx
        cases hmx
      | some e =>
        rw [he] at hx
        cases e with
        | error p => cases hx
        | ok b =>
          have edge : aliasOf z s t = some (.ok b) := by simp [aliasOf, hl, he]
          obtain ⟨a, reach, ha⟩ := ih b (mem_aliasCalls.mpr ⟨hq, t, ht, edge⟩) x hx hmx
          exact ⟨a, .head ⟨hq, t, ht, edge⟩ reach, ha⟩
    · by_cases hany : q = typeANY
      · subst hany
        rw [matchType_any] at hx
        cases hx
        cases List.mem_singleton.mp hmx
        have mem : targetName s t ∈ z.labels := AList.lookup_isSome.mp (by simp [hl])
        exact ⟨s, .refl, .inl (.any hq ht mem)⟩
      · obtain ⟨⟨r, rs, hrec⟩, rfl⟩ := matchType_records hany hmf ⟨x, hx, hmx⟩
        exact ⟨s, .refl, .inl (.records hq hany hmf ht hl hrec)⟩
  · exact ⟨s, .refl, .inr here⟩

/-- The matches found along the aliases are all kept. -/
lemma value_reach_subset (h : (lookupRec z targets qts).value s = .ok r)
    (reach : AliasReach z targets qts s a) :
    ∃ r', (lookupRec z targets qts).value a = .ok r' ∧ r' ⊆ r := by
  induction reach with
  | refl => exact ⟨r, h, List.Subset.refl r⟩
  | tail _ edge ih =>
    obtain ⟨r1, h1, sub1⟩ := ih
    obtain ⟨hq, t, ht, he⟩ := edge
    obtain ⟨l, hl, hb⟩ := Option.bind_eq_some_iff.mp he
    rw [Recursion.value_eq] at h1
    obtain ⟨x, hx, sub⟩ := findBody_visits h1 ht hl hq
    rw [matchType_mf, hb] at hx
    exact ⟨x, hx, List.Subset.trans sub sub1⟩

/-- The own matches of every name that is reached are found. -/
theorem ownMatch_mem (h : (lookupRec z targets qts).value s = .ok r)
    (reach : AliasReach z targets qts s a) (own : OwnMatch z targets qts a m) : m ∈ r := by
  obtain ⟨r', h', sub⟩ := value_reach_subset h reach
  apply sub
  rw [Recursion.value_eq] at h'
  cases own with
  | any hq ht mem =>
    obtain ⟨l, hl⟩ := Option.isSome_iff_exists.mp (AList.lookup_isSome.mpr mem)
    obtain ⟨x, hx, sub'⟩ := findBody_visits h' ht hl hq
    rw [matchType_any] at hx
    cases hx
    exact sub' (List.mem_singleton.mpr rfl)
  | @records t l q rec recs hq hany hmf ht hl hrec =>
    obtain ⟨x, hx, sub'⟩ := findBody_visits h' ht hl hq
    simp only [matchType, hany, hmf, if_false, hrec] at hx
    cases hx
    exact sub' (List.mem_singleton.mpr rfl)

/-- A lookup finds nothing exactly when no name on the way is a label or has a match of its own. -/
theorem value_eq_nil_iff (h : (lookupRec z targets qts).value s = .ok r) :
    r = [] ↔ ∀ a, AliasReach z targets qts s a →
      a ∉ z.labels ∧ ∀ m, ¬ OwnMatch z targets qts a m := by
  constructor
  · rintro rfl a reach
    refine ⟨?_, fun m own => by cases ownMatch_mem h reach own⟩
    intro mem
    obtain ⟨r', h', sub⟩ := value_reach_subset h reach
    rw [List.eq_nil_of_subset_nil sub, Recursion.value_eq] at h'
    -- a label with nothing found below it is itself the match
    obtain ⟨found, _, hfound⟩ := findBody_eq_ok.mp h'
    obtain ⟨l, hl⟩ := Option.isSome_iff_exists.mp (AList.lookup_isSome.mpr mem)
    rcases hfound with ⟨ne, e⟩ | ⟨_, e⟩
    · exact ne e.symm
    · simp [hl] at e
  · intro none
    cases r with
    | nil => rfl
    | cons m r =>
      obtain ⟨a, reach, own | ⟨l, hl, _⟩⟩ := mem_of_value h (m := m) List.mem_cons_self
      · exact ((none a reach).2 m own).elim
      · exact ((none a reach).1 (AList.lookup_isSome.mp (by simp [hl]))).elim

/-! ## Safety -/

/-- The zones and queries that are safe. -/
def SafeLookup (z : Zone) (targets : List String) (qts : List RRType) (s : String) : Prop :=
  ∀ a, AliasReach z targets qts s a → ∀ t ∈ targets, ∀ l, z.labels.lookup (targetName a t) = some l →
    (typeMF ∈ qts → l.recordsOf typeMF ≠ some []) ∧ (typeANY ∈ qts → a ∈ z.labels)

/-- In an accepted zone only an empty array of aliases is unreadable. -/
lemma aliasEntry_error {ext : Externals} (loaded : Loaded ext z) {k : String} {l : Label}
    (hl : z.labels.lookup k = some l) {p : Panic} (he : aliasEntry l = some (.error p)) :
    l.recordsOf typeMF = some [] := by
  unfold aliasEntry at he
  rcases hr : l.recordsOf typeMF with _ | _ | ⟨r, rs⟩
  · simp [hr] at he
  · rfl
  · -- the first record would have to be of another Go type
    have type : RData.type r.rr.data = typeMF :=
      ((loaded.filed hl).types hr List.mem_cons_self (by decide)).data
    obtain ⟨mf, hd⟩ := RData.type_eq_mf type
    simp [hr, hd] at he

/-- A bad alias is met on the way along the aliases. -/
lemma MeetsBadAlias.reaches (h : MeetsBadAlias z targets s) (hq : typeMF ∈ qts) :
    ∃ a, AliasReach z targets qts s a ∧ ∃ t ∈ targets, ∃ p, aliasOf z a t = some (.error p) := by
  induction h with
  | @here s t p pre post e _ bad => exact ⟨s, .refl, t, by simp [e], p, bad⟩
  | @there s t b pre post e _ hb _ ih =>
    obtain ⟨a, reach, ha⟩ := ih
    exact ⟨a, .head ⟨hq, t, by simp [e], hb⟩ reach, ha⟩

/-- A lookup without `MF` does not panic. -/
lemma value_panic_mf {p : Panic} (h : (lookupRec z targets qts).value s = .panic p) :
    typeMF ∈ qts := by
  rw [Recursion.value_eq] at h
  obtain ⟨_, t, _, _, _, ht⟩ := Res.collect_eq_panic.mp (findBody_eq_panic.mp h)
  exact (matchTarget_eq_panic.mp ht).1

/-- A safe lookup does not panic. -/
lemma safeLookup_not_panic {ext : Externals} (loaded : Loaded ext z)
    (safe : SafeLookup z targets qts s) {p : Panic} :
    (lookupRec z targets qts).value s ≠ .panic p := by
  intro h
  have hq := value_panic_mf h
  obtain ⟨a, reach, t, ht, p', bad⟩ := ((panics_iff hq).mp ⟨p, h⟩).reaches hq
  obtain ⟨l, hl, he⟩ := Option.bind_eq_some_iff.mp bad
  exact (safe a reach t ht l hl).1 hq (aliasEntry_error loaded hl he)

/-- In an accepted zone, a lookup whose recursion ends returns with a label of the zone in every match,
    for the safe zones and queries and for no others. -/
theorem findLabels_safe_iff {ext : Externals} (accepted : Accepted ext z)
    (ends : ¬ Diverges z targets qts s) :
    (∃ fuel r, findLabels z targets qts fuel s = .ok r ∧
      ∀ m ∈ r, ∃ k l, z.labels.lookup k = some l ∧ m.label = some l) ↔
      SafeLookup z targets qts s := by
  have ends : (lookupRec z targets qts).value s ≠ .diverge := fun h => ends (diverges_iff.mpr h)
  constructor
  · rintro ⟨fuel, r, h, good⟩ a reach t ht l hl
    have h := value_of_findLabels h
    constructor
    · intro hq empty
      obtain ⟨r', h', _⟩ := value_reach_subset h reach
      rw [Recursion.value_eq] at h'
      obtain ⟨x, hx, _⟩ := findBody_visits h' ht hl hq
      simp [matchType_mf, aliasEntry, empty] at hx
    · intro hq
      have mem : targetName a t ∈ z.labels := AList.lookup_isSome.mp (by simp [hl])
      obtain ⟨k, l', _, hl'⟩ := good _ (ownMatch_mem h reach (.any hq ht mem))
      exact AList.lookup_isSome.mp (by simp_all)
  · intro safe
    cases h : (lookupRec z targets qts).value s with
    | diverge => exact (ends h).elim
    | panic p => exact (safeLookup_not_panic accepted.loaded safe h).elim
    | ok r =>
      obtain ⟨fuel, hf⟩ := ((lookupRec z targets qts).value_eq_iff_run (by simp)).mp h
      refine ⟨fuel, r, by rw [findLabels_eq_run, hf], ?_⟩
      intro m hm
      obtain ⟨a, reach, own | ⟨l, hl, rfl⟩⟩ := mem_of_value h hm
      · cases own with
        | any hq ht mem =>
          obtain ⟨l, hl⟩ := Option.isSome_iff_exists.mp (AList.lookup_isSome.mpr mem)
          have mem' : a ∈ z.labels := (safe a reach _ ht l hl).2 hq
          obtain ⟨l', hl'⟩ := Option.isSome_iff_exists.mp (AList.lookup_isSome.mpr mem')
          exact ⟨a, l', hl', hl'⟩
        | records _ _ _ _ hl _ => exact ⟨_, _, hl, rfl⟩
      · exact ⟨a, l, hl, rfl⟩

end

/-- Two accepted zones with queries that are not safe: an address for clients in Europe only, asked for
    with type `ANY` by one of them, gives a match without a label, and an empty array of aliases makes
    the lookup panic. -/
theorem unsafe_lookups :
    let z1 := smallZone [("www.europe", .obj [("a", .arr [.arr [.str "192.0.2.1"]])])]
    let z2 := smallZone [("www", .obj [("alias", .arr [])])]
    (Accepted smallExternals z1 ∧
      findLabels z1 ["europe", "@"] [typeMF, typeCNAME, typeANY] 1 "www" = .ok [⟨none, typeANY⟩]) ∧
    (Accepted smallExternals z2 ∧
      findLabels z2 ["europe", "@"] [typeMF, typeCNAME, typeA] 1 "www" = .panic .index) :=
  ⟨⟨smallZone_accepted rfl, rfl⟩, ⟨smallZone_accepted rfl, rfl⟩⟩

/-- An alias that leads to an address, asked for with type `ANY`. -/
theorem safe_lookup_of_alias :
    let z := smallZone [("www", .obj [("alias", .str "web")]),
      ("web", .obj [("a", .arr [.arr [.str "192.0.2.1"]])])]
    (Accepted smallExternals z ∧ ¬ Diverges z ["@"] [typeMF, typeCNAME, typeANY] "www") ∧
      SafeLookup z ["@"] [typeMF, typeCNAME, typeANY] "www" := by
  intro z
  have accepted : Accepted smallExternals z := smallZone_accepted rfl
  have ends : ¬ Diverges z ["@"] [typeMF, typeCNAME, typeANY] "www" := fun h => by cases h 2
  refine ⟨⟨accepted, ends⟩, (findLabels_safe_iff accepted ends).mp ?_⟩
  refine ⟨2, _, rfl, ?_⟩
  intro m hm
  rcases hm with _ | ⟨_, _ | ⟨_, hm⟩⟩
  · exact ⟨"web", _, rfl, rfl⟩
  · exact ⟨"www", _, rfl, rfl⟩
  · cases hm

end GeoDNS.Zones
