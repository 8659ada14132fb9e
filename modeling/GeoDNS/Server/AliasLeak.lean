import GeoDNS.Server.Response
import GeoDNS.Zones.AliasChain
import GeoDNS.Zones.Representation

/-!
# Aliases in answers

An alias is a record of the internal type `MF`, filed with the other records of its label. `FindLabels`
follows aliases and has no match of that type, but a query for `ANY` has a match with all records of the
label of the name itself. If that match is the first one with anything to serve, the alias is in the
answer.

Which match is the first is a matter of the zone, the targets and the health of records. `Silent` says
that the lookup of a name has no match with anything to serve, and `Leaks` that the first such match is
one at a label with an alias; both follow the aliases as `FindLabels` does. `lookup_leaks` ties them to the
matches, and `answerLoop_leaks` the matches to the answer.
-/

namespace GeoDNS.Server
open GeoDNS.Lib GeoDNS.Dns GeoDNS.Health GeoDNS.Targeting GeoDNS.Zones

/-- There is nothing to serve for a query for `ANY` at the label of this name, if it has one. -/
def Bare (status : String → Res StatusType) (z : Zone) (s : String) : Prop :=
  ∀ l, z.labels.lookup s = some l → NothingFor status l l.maxHosts typeANY

/-- The lookup of `s` for `ANY` has nothing to serve: neither what the aliases lead to, nor the canonical
    names at the labels found for the targets, nor the label of `s` itself. -/
inductive Silent (status : String → Res StatusType) (z : Zone) (targets : List String) : String → Prop
  | intro {s} : (∀ t ∈ targets, ∀ b, aliasOf z s t = some (.ok b) → Silent status z targets b) →
      (∀ t ∈ targets, ∀ l, z.labels.lookup (targetName s t) = some l →
        NothingFor status l l.maxHosts typeCNAME ∧ Bare status z s) → Silent status z targets s

/-- `Silent`, as far as one target is concerned. -/
def SilentAt (status : String → Res StatusType) (z : Zone) (targets : List String) (s t : String) : Prop :=
  (∀ b, aliasOf z s t = some (.ok b) → Silent status z targets b) ∧
    ∀ l, z.labels.lookup (targetName s t) = some l →
      NothingFor status l l.maxHosts typeCNAME ∧ Bare status z s

/-- The first thing that the lookup of `s` for `ANY` has to serve is a label with an alias: it is found
    along the alias of some target, or it is the label of `s` itself. -/
inductive Leaks (status : String → Res StatusType) (z : Zone) (targets : List String) : String → Prop
  | along {s pre t post b} : targets = pre ++ t :: post →
      (∀ u ∈ pre, SilentAt status z targets s u) →
      aliasOf z s t = some (.ok b) → Leaks status z targets b → Leaks status z targets s
  | here {s pre t post l l' r rs} : targets = pre ++ t :: post →
      (∀ u ∈ pre, SilentAt status z targets s u) →
      z.labels.lookup (targetName s t) = some l →
      (∀ b, aliasOf z s t = some (.ok b) → Silent status z targets b) →
      NothingFor status l l.maxHosts typeCNAME →
      z.labels.lookup s = some l' → l'.recordsOf typeMF = some (r :: rs) → Leaks status z targets s

/-- A match with nothing to serve. -/
def Skipped (status : String → Res StatusType) (found : LabelMatch) : Prop :=
  ∀ l, found.label = some l → NothingFor status l l.maxHosts found.type

/-- A match with all records of a label that has an alias. -/
def AliasMatch (found : LabelMatch) : Prop :=
  found.type = typeANY ∧ ∃ l r rs, found.label = some l ∧ l.recordsOf typeMF = some (r :: rs)

/-! ## Aliases as records -/

/-- The aliases of a label have neither weights nor tests. -/
def PlainAliases (l : Label) : Prop :=
  ∀ rs, l.recordsOf typeMF = some rs →
    ∀ r ∈ rs, r.weight = 0 ∧ r.test = "" ∧ ∃ b, r.rr.data = .mf b

section
variable {ext : Externals} {z : Zone} {k : String} {l : Label}

/-- The aliases of a zone that is accepted. -/
lemma accepted_plainAliases (accepted : Accepted ext z) (hl : z.labels.lookup k = some l) :
    PlainAliases l := by
  obtain ⟨data, start, empty, ok⟩ := accepted
  intro rs hrec r hr
  obtain ⟨dk, entries, read, _, each, perm, _⟩ := setupZoneData_records empty ok hl (by decide) hrec
  obtain ⟨r0, hr0, rfl⟩ := List.mem_map.mp (perm.mem_iff.mp hr)
  exact readAliases_plain each r0 hr0

/-- Setting up health tests leaves the aliases of a label plain. -/
lemma PlainAliases.setupHealthTests (plain : PlainAliases l) : PlainAliases l.setupHealthTests := by
  cases test : l.test with
  | none => rwa [LabelOf.setupHealthTests, test]
  | some ref =>
    intro rs hrec r hr
    rw [recordsOf_setupHealthTests test] at hrec
    obtain ⟨rs0, hrec0, rfl⟩ := Option.map_eq_some_iff.mp hrec
    obtain ⟨r0, hr0, rfl⟩ := List.mem_map.mp hr
    obtain ⟨weight, untested, b, data⟩ := plain rs0 hrec0 r0 hr0
    have noData : testData r0.rr = none := by rw [testData, data]
    have same : setupTest r0 = r0 := by rw [setupTest, if_neg (not_not.mpr untested), noData]
    rw [same]
    exact ⟨weight, untested, b, data⟩

/-- A zone in service has plain aliases. -/
lemma installed_plainAliases (installed : Installed ext z) (hl : z.labels.lookup k = some l) :
    PlainAliases l := by
  induction installed generalizing l with
  | accepted h => exact accepted_plainAliases h hl
  | located g _ ih =>
    replace hl : (AList.lookup k (GoMap.mapVals _ _)) = some l := hl
    rw [GoMap.lookup_mapVals] at hl
    obtain ⟨l0, hl0, rfl⟩ := Option.map_eq_some_iff.mp hl
    intro rs hrec
    rw [recordsOf_locate, if_neg (fun h => absurd h.2 (by decide))] at hrec
    exact ih hl0 rs hrec
  | tested _ ih =>
    replace hl : (AList.lookup k (GoMap.mapVals _ _)) = some l := hl
    rw [GoMap.lookup_mapVals] at hl
    obtain ⟨l0, hl0, rfl⟩ := Option.map_eq_some_iff.mp hl
    exact (ih hl0).setupHealthTests

end

/-! ## From the matches to the answer -/

section
variable {ext : Externals} {env : Env} {z : Zone} {k n : Nat} {l : Label} {location : Option Location}
variable {qname : String} {found : LabelMatch} {answer : List RR} {labelMatches : List LabelMatch}

/-- All aliases of a label are picked. -/
lemma pickType_aliases (plain : PlainAliases l) (filed : Filed l) {rs : List Record}
    (hrec : l.recordsOf typeMF = some rs) (max : Int) :
    pickType env.status env.geod env.chance l typeMF max location n = .ok (rs.map some, n) := by
  have weightless : (rs.map Record.weight).sum = 0 := by
    apply List.sum_eq_zero
    intro w hw
    obtain ⟨r, hr, rfl⟩ := List.mem_map.mp hw
    exact (plain rs hrec r hr).1
  have weight : l.weightOf typeMF = 0 := (filed.weights hrec).trans weightless
  have all : candidates env.status l typeMF rs = .ok (rs, 0) := by
    unfold candidates
    split
    · rw [weight]
    · rw [filterHealth_untested (fun r hr => (plain rs hrec r hr).2.1), weightless]
  have unb : unbalanced l typeMF 0 = true := by simp [unbalanced, weight]
  rw [pickType, hrec]
  dsimp only
  rw [all, Res.ok_bind]
  dsimp only
  rw [if_pos unb]
  rfl

/-- A match answers with nothing if it has nothing to serve. -/
lemma AnswersWith.eq_nil_iff (h : AnswersWith env qname found answer) :
    answer = [] ↔ Skipped env.status found := by
  obtain ⟨l, location, n, servers, n', hl, hpick, hrrs⟩ := h
  have length : servers.length = answer.length := (Res.mapM_eq_ok.mp hrrs).length_eq
  have skipped : Skipped env.status found ↔ NothingFor env.status l l.maxHosts found.type := by
    constructor
    · exact fun skipped => skipped l hl
    · intro nothing l' hl'
      rw [hl] at hl'
      cases hl'
      exact nothing
  rw [skipped, ← picker_eq_nil hpick, ← List.length_eq_zero_iff, ← List.length_eq_zero_iff, length]

/-- An alias is in the answer of a match if and only if the match is one with all records of a label that
    has an alias. -/
lemma AnswersWith.alias_iff (installed : Installed ext z) (parses : ParsesSOA ext z)
    (inZone : ∀ l, found.label = some l → ∃ k, z.labels.lookup k = some l) (type : found.type ≠ typeMF)
    (h : AnswersWith env qname found answer) :
    (∃ rr ∈ answer, rr.hdr.rrtype = typeMF) ↔ AliasMatch found := by
  constructor
  · rintro ⟨rr, hrr, e⟩
    obtain ⟨l, t, rs, r, hl, hrec, hr, ht, rfl⟩ := h.mem hrr
    obtain ⟨k, hk⟩ := inZone l hl
    have e : r.rr.hdr.rrtype = typeMF := e
    rw [installed.loaded.rrtype parses hk hrec hr] at e
    subst e
    refine ⟨?_, ?_⟩
    · by_contra notAny
      exact type (ht notAny).symm
    · cases rs with
      | nil => cases hr
      | cons r' rs => exact ⟨l, r', rs, hl, hrec⟩
  · rintro ⟨any, l, r, rs, hl, hrec⟩
    obtain ⟨l', location, n, servers, n', hl', hpick, hrrs⟩ := h
    rw [hl] at hl'
    cases hl'
    obtain ⟨k, hk⟩ := inZone l hl
    have filed := installed.loaded.filed hk
    rw [picker, if_pos any] at hpick
    have mem : typeMF ∈ l.records.keys := AList.lookup_isSome.mp (by
      rw [LabelOf.recordsOf] at hrec
      simp [hrec])
    obtain ⟨n1, ys, n2, hys, sub⟩ :=
      pickTypes_turn hpick ((env.chance.order_perm n _).mem_iff.mpr mem)
    rw [pickType_aliases (installed_plainAliases installed hk) filed hrec] at hys
    cases hys
    have hr : some r ∈ servers := sub (by simp)
    exact ⟨r.rr.setName qname, Res.mem_mapM hrrs hr rfl,
      (filed.types hrec List.mem_cons_self (by decide)).hdr⟩

/-- The loop over the matches puts an alias into the answer if and only if the first match with anything
    to serve is one with all records of a label that has an alias. -/
lemma answerLoop_leaks (installed : Installed ext z) (parses : ParsesSOA ext z)
    (inZone : ∀ found ∈ labelMatches, ∀ l, found.label = some l → ∃ k, z.labels.lookup k = some l)
    (types : ∀ found ∈ labelMatches, found.type ≠ typeMF)
    (h : answerLoop env qname labelMatches location n = .ok answer) :
    (∃ rr ∈ answer, rr.hdr.rrtype = typeMF) ↔ Hits (Skipped env.status) AliasMatch labelMatches := by
  obtain ⟨pre, before, rest⟩ := answerLoop_eq_ok h
  have skips : ∀ found ∈ pre, Skipped env.status found := fun found hf =>
    (before found hf).eq_nil_iff.mp rfl
  have sub : ∀ found ∈ pre, found ∈ labelMatches := by
    rcases rest with ⟨_, rfl⟩ | ⟨_, found, post, rfl, _⟩
    · exact fun _ => id
    · exact fun _ => List.mem_append_left _
  have noHit : ¬ Hits (Skipped env.status) AliasMatch pre := by
    apply not_hits
    intro found hf hit
    have mem := sub found hf
    obtain ⟨_, hrr, _⟩ := ((before found hf).alias_iff installed parses (inZone found mem)
      (types found mem)).mpr hit
    cases hrr
  rcases rest with ⟨rfl, rfl⟩ | ⟨ne, found, post, rfl, answers⟩
  · simpa using noHit
  · have mem : found ∈ pre ++ found :: post := by simp
    rw [answers.alias_iff installed parses (inZone found mem) (types found mem), hits_append, Hits]
    have served : ¬ Skipped env.status found := fun skip => ne (answers.eq_nil_iff.mpr skip)
    tauto

end

/-! ## From the lookup to the matches -/

section
variable {ext : Externals} {status : String → Res StatusType} {z : Zone} {targets : List String}
variable {s t : String} {f : String → Res (List LabelMatch)} {x r : List LabelMatch}

/-- A name is silent if it is so under each target. -/
lemma silent_iff : Silent status z targets s ↔ ∀ t ∈ targets, SilentAt status z targets s t := by
  constructor
  · rintro ⟨along, here⟩ t ht
    exact ⟨along t ht, here t ht⟩
  · intro silent
    exact ⟨fun t ht => (silent t ht).1, fun t ht => (silent t ht).2⟩

/-- `Leaks`, as far as one target is concerned. -/
def LeaksAt (status : String → Res StatusType) (z : Zone) (targets : List String) (s t : String) : Prop :=
  (∃ b, aliasOf z s t = some (.ok b) ∧ Leaks status z targets b) ∨
    ((∀ b, aliasOf z s t = some (.ok b) → Silent status z targets b) ∧
      ∃ l, z.labels.lookup (targetName s t) = some l ∧ NothingFor status l l.maxHosts typeCNAME ∧
        ∃ l' r rs, z.labels.lookup s = some l' ∧ l'.recordsOf typeMF = some (r :: rs))

/-- An alias leaks if it does so under a target after silent ones. -/
lemma leaks_iff : Leaks status z targets s ↔ ∃ pre t post, targets = pre ++ t :: post ∧
    (∀ u ∈ pre, SilentAt status z targets s u) ∧ LeaksAt status z targets s t := by
  constructor
  · intro leaks
    cases leaks with
    | along order before points leaks => exact ⟨_, _, _, order, before, .inl ⟨_, points, leaks⟩⟩
    | here order before found silent cname own entry =>
      exact ⟨_, _, _, order, before, .inr ⟨silent, _, found, cname, _, _, _, own, entry⟩⟩
  · rintro ⟨pre, t, post, order, before,
      ⟨b, points, leaks⟩ | ⟨silent, l, found, cname, l', r, rs, own, entry⟩⟩
    · exact .along order before points leaks
    · exact .here order before found silent cname own entry

/-- The match for canonical names at a label, if there is one, has something to serve only if the label
    has. -/
lemma matchType_cname {l : Label} (h : matchType z f s l typeCNAME = .ok x) :
    ((∀ m ∈ x, Skipped status m) ↔ NothingFor status l l.maxHosts typeCNAME) ∧
      ∀ m ∈ x, ¬ AliasMatch m := by
  have other : typeCNAME ≠ typeANY := by decide
  by_cases absent : ∀ r rs, l.recordsOf typeCNAME ≠ some (r :: rs)
  · rw [matchType_absent other (by decide) absent] at h
    cases h
    rw [NothingFor, if_neg other]
    exact ⟨iff_of_true (by simp) (blank_of_absent absent), by simp⟩
  · simp only [not_forall, not_not] at absent
    obtain ⟨r, rs, hrec⟩ := absent
    have here : matchType z f s l typeCNAME = .ok [⟨some l, typeCNAME⟩] := by
      rw [matchType, if_neg other, if_neg (by decide), hrec]
    rw [here] at h
    cases h
    refine ⟨?_, ?_⟩
    · rw [List.forall_mem_singleton]
      constructor
      · exact fun skipped => skipped l rfl
      · rintro nothing l' ⟨⟩
        exact nothing
    · rw [List.forall_mem_singleton]
      exact fun hit => other hit.1

/-- The matches along the alias of a target, if what the recursive call finds is as it should be. -/
lemma matchType_alias {l : Label} (hl : z.labels.lookup (targetName s t) = some l)
    (h : matchType z f s l typeMF = .ok x)
    (ih : ∀ b y, aliasOf z s t = some (.ok b) → f b = .ok y →
      (Silent status z targets b ↔ ∀ m ∈ y, Skipped status m) ∧
        (Leaks status z targets b ↔ Hits (Skipped status) AliasMatch y)) :
    ((∀ b, aliasOf z s t = some (.ok b) → Silent status z targets b) ↔ ∀ m ∈ x, Skipped status m) ∧
      ((∃ b, aliasOf z s t = some (.ok b) ∧ Leaks status z targets b) ↔
        Hits (Skipped status) AliasMatch x) := by
  have entry : aliasOf z s t = aliasEntry l := by rw [aliasOf, hl, Option.bind_some]
  rw [matchType_mf, ← entry] at h
  cases he : aliasOf z s t with
  | none =>
    rw [he] at h
    cases h
    simp [Hits]
  | some e =>
    rw [he] at h
    cases e with
    | error p => cases h
    | ok b =>
      obtain ⟨silent, leaks⟩ := ih b x he h
      rw [← silent, ← leaks]
      simp

/-- The first match for a target that is not skipped, by what the target leaks. -/
lemma matchTarget_leaks (h : matchTarget z [typeMF, typeCNAME, typeANY] f s t = .ok x)
    (ih : ∀ b y, aliasOf z s t = some (.ok b) → f b = .ok y →
      (Silent status z targets b ↔ ∀ m ∈ y, Skipped status m) ∧
        (Leaks status z targets b ↔ Hits (Skipped status) AliasMatch y)) :
    (SilentAt status z targets s t ↔ ∀ m ∈ x, Skipped status m) ∧
      (LeaksAt status z targets s t ↔ Hits (Skipped status) AliasMatch x) := by
  cases hl : z.labels.lookup (targetName s t) with
  | none =>
    rw [matchTarget, hl] at h
    cases h
    simp [SilentAt, LeaksAt, aliasOf, hl, Hits]
  | some l =>
    rw [matchTarget, hl] at h
    obtain ⟨x1, _, h1, h', rfl⟩ := Res.collect_cons_eq_ok.mp h
    obtain ⟨x2, _, h2, h'', rfl⟩ := Res.collect_cons_eq_ok.mp h'
    obtain ⟨x3, _, h3, last, rfl⟩ := Res.collect_cons_eq_ok.mp h''
    cases last
    rw [matchType_any] at h3
    cases h3
    obtain ⟨silent, leaks⟩ := matchType_alias hl h1 ih
    obtain ⟨cname, noAlias⟩ : ((∀ m ∈ x2, Skipped status m) ↔
        NothingFor status l l.maxHosts typeCNAME) ∧ ∀ m ∈ x2, ¬ AliasMatch m := matchType_cname h2
    have bare : (∀ m ∈ [⟨z.labels.lookup s, typeANY⟩], Skipped status m) ↔ Bare status z s :=
      List.forall_mem_singleton
    have own : Hits (Skipped status) AliasMatch [⟨z.labels.lookup s, typeANY⟩] ↔
        ∃ l' r rs, z.labels.lookup s = some l' ∧ l'.recordsOf typeMF = some (r :: rs) := by
      simp [Hits, AliasMatch]
    constructor
    · rw [List.forall_mem_append, List.forall_mem_append, ← silent, cname, List.append_nil, bare]
      simp [SilentAt, hl]
    · rw [hits_append, hits_append, ← leaks, ← silent, cname, List.append_nil, own]
      have none : ¬ Hits (Skipped status) AliasMatch x2 := not_hits noAlias
      simp [LeaksAt, hl, none]

/-- The matches of a lookup for `ANY`: none of them has anything to serve if the name is silent, and the
    first one that has is at a label with an alias if the name leaks. -/
theorem lookup_leaks (loaded : Loaded ext z)
    (h : (lookupRec z targets [typeMF, typeCNAME, typeANY]).value s = .ok r) :
    (Silent status z targets s ↔ ∀ m ∈ r, Skipped status m) ∧
      (Leaks status z targets s ↔ Hits (Skipped status) AliasMatch r) := by
  refine (lookupRec z targets [typeMF, typeCNAME, typeANY]).value_induction (motive := fun s r =>
    (Silent status z targets s ↔ ∀ m ∈ r, Skipped status m) ∧
      (Leaks status z targets s ↔ Hits (Skipped status) AliasMatch r)) ?_ h
  intro s r hr ih
  obtain ⟨found, hfound, rest⟩ := findBody_eq_ok.mp hr
  have turn : ∀ t ∈ targets, ∀ x, matchTarget z [typeMF, typeCNAME, typeANY]
      (lookupRec z targets [typeMF, typeCNAME, typeANY]).value s t = .ok x →
      (SilentAt status z targets s t ↔ ∀ m ∈ x, Skipped status m) ∧
        (LeaksAt status z targets s t ↔ Hits (Skipped status) AliasMatch x) := by
    intro t ht x hx
    apply matchTarget_leaks hx
    intro b y hb hy
    have call : b ∈ aliasCalls z targets [typeMF, typeCNAME, typeANY] s :=
      mem_aliasCalls.mpr ⟨List.mem_cons_self, t, ht, hb⟩
    exact ih b call y hy
  have silent : Silent status z targets s ↔ ∀ m ∈ found, Skipped status m := by
    rw [silent_iff, Res.collect_skips hfound]
    constructor
    · intro silent t ht x hx
      exact (turn t ht x hx).1.mp (silent t ht)
    · intro skips t ht
      obtain ⟨x, hx, _⟩ := Res.collect_mem hfound ht
      exact (turn t ht x hx).1.mpr (skips t ht x hx)
  have leaks : Leaks status z targets s ↔ Hits (Skipped status) AliasMatch found := by
    rw [leaks_iff, Res.collect_hits hfound]
    constructor
    · rintro ⟨pre, t, post, e, before, leaks⟩
      have ht : t ∈ targets := by simp [e]
      obtain ⟨x, hx, _⟩ := Res.collect_mem hfound ht
      refine ⟨pre, t, post, x, e, hx, (turn t ht x hx).2.mp leaks, ?_⟩
      intro u hu y hy
      exact (turn u (by simp [e, hu]) y hy).1.mp (before u hu)
    · rintro ⟨pre, t, post, x, e, hx, hits, before⟩
      have ht : t ∈ targets := by simp [e]
      refine ⟨pre, t, post, e, ?_, (turn t ht x hx).2.mpr hits⟩
      intro u hu
      have hu' : u ∈ targets := by simp [e, hu]
      obtain ⟨y, hy, _⟩ := Res.collect_mem hfound hu'
      exact (turn u hu' y hy).1.mpr (before u hu y hy)
  rcases rest with ⟨_, rfl⟩ | ⟨rfl, rfl⟩
  · exact ⟨silent, leaks⟩
  · -- a label that stands for itself has nothing to serve
    have skips : ∀ m ∈ (z.labels.lookup s).toList.map (fun l => (⟨some l, 0⟩ : LabelMatch)),
        Skipped status m ∧ ¬ AliasMatch m := by
      intro m hm
      obtain ⟨l, hl, rfl⟩ := List.mem_map.mp hm
      have absent := (loaded.filed (Option.mem_toList.mp hl)).absent (.inr rfl)
      have zero : (0 : RRType) ≠ typeANY := by decide
      refine ⟨?_, fun hit => zero hit.1⟩
      rintro l' ⟨⟩
      rw [NothingFor, if_neg zero]
      exact blank_of_absent (by simp [absent])
    rw [silent, leaks]
    exact ⟨iff_of_true (by simp) (fun m hm => (skips m hm).1),
      iff_of_false id (not_hits (fun m hm => (skips m hm).2))⟩

end

/-! ## Answers with aliases -/

section
variable {ext : Externals} {env : Env} {srv : ServerConfig} {w : RemoteAddr} {req m : Msg} {z : Zone}
variable {question : Question} {msgs : List Msg} {fuel : Nat} {targets : List String} {s qlabel : String}
variable {labelMatches : List LabelMatch} {found : LabelMatch} {q : RRType} {asker : Asker}

/-- No match is for aliases, and its label is one of the zone. -/
lemma match_label (h : findLabels z targets [typeMF, typeCNAME, q] fuel s = .ok labelMatches)
    (hm : found ∈ labelMatches) :
    found.type ≠ typeMF ∧ ∀ l, found.label = some l → ∃ k, z.labels.lookup k = some l := by
  obtain ⟨a, _, own | ⟨l, hl, rfl⟩⟩ := mem_of_value (value_of_findLabels h) hm
  · cases own with
    | any _ _ _ =>
      have any : typeANY ≠ typeMF := by decide
      exact ⟨any, fun l hl => ⟨a, hl⟩⟩
    | records _ _ hmf _ hl _ =>
      refine ⟨hmf, ?_⟩
      rintro l' ⟨⟩
      exact ⟨_, hl⟩
  · have zero : (0 : RRType) ≠ typeMF := by decide
    refine ⟨zero, ?_⟩
    rintro l' ⟨⟩
    exact ⟨a, hl⟩

/-- The server's own answers are texts. -/
lemma noMatch_answer (h : noMatch env srv w req z asker question qlabel = .ok m) :
    ∀ rr ∈ m.answer, rr.hdr.rrtype = typeTXT := by
  have debug : ∀ {m' qtype name txt}, m'.answer = [] →
      debugReply z m' qtype [debugRR name txt] = .ok m → ∀ rr ∈ m.answer, rr.hdr.rrtype = typeTXT := by
    intro m' qtype name txt empty h
    unfold debugReply at h
    split_ifs at h with text
    · cases h
      simp [debugRR]
    · obtain ⟨soa, _, h⟩ := Res.bind_eq_ok.mp h
      cases h
      simp [empty]
  unfold noMatch at h
  dsimp only at h
  split_ifs at h with status health country
  · exact debug rfl h
  · exact debug rfl h
  · exact debug rfl h
  · obtain ⟨soa, _, h⟩ := Res.bind_eq_ok.mp h
    cases h
    exact fun rr hrr => by cases hrr

/-- The answer that `serve` takes from the matches has an alias in it if and only if the query is for
    `ANY` and its name leaks. -/
lemma answerLoop_alias_iff (installed : Installed ext z) (parses : ParsesSOA ext z)
    (hfind : findLabels z targets [typeMF, typeCNAME, q] fuel s = .ok labelMatches)
    {qname : String} {location : Option Location} {n : Nat} {answer : List RR}
    (h : answerLoop env qname labelMatches location n = .ok answer) :
    (∃ rr ∈ answer, rr.hdr.rrtype = typeMF) ↔ q = typeANY ∧ Leaks env.status z targets s := by
  rw [answerLoop_leaks installed parses (fun found hf => (match_label hfind hf).2)
    (fun found hf => (match_label hfind hf).1) h]
  by_cases any : q = typeANY
  · subst any
    rw [(lookup_leaks installed.loaded (value_of_findLabels hfind)).2]
    simp
  · refine iff_of_false ?_ (fun leaks => any leaks.1)
    apply not_hits
    intro found hf hit
    obtain ⟨_, _, _, _, type⟩ := match_type hfind any hf
    rw [hit.1] at type
    rcases type with e | e | e
    · exact absurd e (by decide)
    · exact any e.symm
    · exact absurd e (by decide)

/-- In a zone in service, no answer has an alias in it unless the query is for `ANY` and the first thing
    that its lookup has to serve is a label with an alias; and then the answer has. -/
theorem no_alias_answered_iff (installed : Installed ext z) (parses : ParsesSOA ext z)
    {rest : List Question} (hq : req.question = question :: rest)
    (h : serve env srv fuel w req z = .ok msgs) :
    (∀ m ∈ msgs, ∀ rr ∈ m.answer, rr.hdr.rrtype ≠ typeMF) ↔
      ¬ (question.qtype = typeANY ∧ ∃ qlabel, getQuestionName z question.name = .ok qlabel ∧
        Leaks env.status z (askerOf env w req z).targets qlabel) := by
  obtain ⟨m, hm, reply⟩ := serve_eq_ok hq h
  have first : (∀ m ∈ msgs, ∀ rr ∈ m.answer, rr.hdr.rrtype ≠ typeMF) ↔
      ¬ ∃ rr ∈ m.answer, rr.hdr.rrtype = typeMF := by
    constructor
    · rintro none ⟨rr, hrr, e⟩
      exact none m (List.mem_of_mem_head? hm) rr hrr e
    · intro none m' hm' rr hrr e
      rcases serve_mem h hm' with head | rfl
      · rw [hm] at head
        cases head
        exact none ⟨rr, hrr, e⟩
      · cases hrr
  rw [first, not_iff_not]
  split_ifs at reply with parse
  · subst reply
    have other : question.qtype ≠ typeANY := by
      rw [parse.1]
      decide
    refine iff_of_false ?_ (fun leaks => other leaks.1)
    have address : typeA ≠ typeMF := by decide
    rintro ⟨rr, hrr, e⟩
    cases List.mem_singleton.mp hrr
    exact address e
  · obtain ⟨qlabel, labelMatches, hname, hfind, ⟨rfl, hreply⟩ | ⟨_, hreply⟩⟩ := reply
    · -- without a match there is nothing to leak, and the server's own answers are texts
      have loop : answerLoop env question.name [] none 0 = .ok [] := rfl
      have none := answerLoop_alias_iff installed parses hfind loop
      refine iff_of_false ?_ ?_
      · rintro ⟨rr, hrr, e⟩
        rw [noMatch_answer hreply rr hrr] at e
        exact absurd e (by decide)
      · rintro ⟨any, qlabel', hname', leaks⟩
        rw [hname] at hname'
        cases hname'
        obtain ⟨rr, hrr, _⟩ := none.mpr ⟨any, leaks⟩
        cases hrr
    · obtain ⟨_, hloop, _⟩ := matched_eq_ok hreply
      rw [answerLoop_alias_iff installed parses hfind hloop]
      simp [hname]

end

/-- The zone `example.com` with an alias of `web`, which has an address, and an alias of a name that does
    not exist. -/
def smallAliases : Zone :=
  smallZone [("www", .obj [("alias", .str "web")]), ("lost", .obj [("alias", .str "nowhere")]),
    ("web", .obj [("a", .arr [.arr [.str "192.0.2.1"]])])]

/-- An alias that leads to an address is not in the answer. -/
theorem resolved_alias_kept :
    let req : Msg := { question := [⟨"www.example.com.", typeANY, classINET⟩] }
    Accepted smallExternals smallAliases ∧
      (∃ m rr, serve smallEnv smallServer 2 smallClient req smallAliases = .ok [m] ∧
        m.answer = [rr] ∧ rr.hdr.rrtype = typeA) ∧
      ¬ Leaks smallEnv.status smallAliases (askerOf smallEnv smallClient req smallAliases).targets
        "www" := by
  intro req
  have accepted : Accepted smallExternals smallAliases := smallZone_accepted rfl
  have parses : ParsesSOA smallExternals smallAliases := by
    intro ns rr h
    cases h
    rfl
  obtain ⟨m, rr, hm, answer, type⟩ : ∃ m rr,
      serve smallEnv smallServer 2 smallClient req smallAliases = .ok [m] ∧ m.answer = [rr] ∧
        rr.hdr.rrtype = typeA := ⟨_, _, rfl, rfl, rfl⟩
  have www : getQuestionName smallAliases "www.example.com." = .ok "www" := by decide +kernel
  refine ⟨accepted, ⟨m, rr, hm, answer, type⟩, fun leaks => ?_⟩
  refine (no_alias_answered_iff (.accepted accepted) parses rfl hm).mp ?_ ⟨rfl, "www", www, leaks⟩
  intro m' hm' rr' hrr'
  cases List.mem_singleton.mp hm'
  rw [answer] at hrr'
  cases List.mem_singleton.mp hrr'
  rw [type]
  decide

/-- An alias of a name that does not exist is in the answer to a query for `ANY`. -/
theorem dangling_alias_answered :
    let req : Msg := { question := [⟨"lost.example.com.", typeANY, classINET⟩] }
    Accepted smallExternals smallAliases ∧
      ∃ m rr, serve smallEnv smallServer 2 smallClient req smallAliases = .ok [m] ∧
        m.answer = [rr] ∧ rr.hdr.rrtype = typeMF :=
  ⟨smallZone_accepted rfl, _, _, rfl, rfl, rfl⟩

end GeoDNS.Server
