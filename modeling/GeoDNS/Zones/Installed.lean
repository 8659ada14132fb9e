import GeoDNS.Zones.Health

/-!
# Zones in service

Between the loader and the first query a zone is changed twice: `SetLocations` looks up the places of
its addresses, and `setupHealthTests` gives its records their tests. Both leave the records and their
weights alone, so what the loader has established about the zone still holds of the one that is served
(`Installed.loaded`).

The tests are given under the wrong name, without the status that the label refers to. So a record stays a
candidate if *its data* is of the form `status/check` and that check is healthy (`candidate_iff`), and this
agrees with what the status of the label reports about it only under the condition of
`candidate_iff_reports_iff`.
-/

namespace GeoDNS.Zones
open GeoDNS.Lib GeoDNS.Dns GeoDNS.Health GeoDNS.Targeting

/-- A zone on its way into service. -/
inductive Installed (ext : Externals) : Zone → Prop
  | accepted {z} : Accepted ext z → Installed ext z
  | located {z} (g : Provider) : Installed ext z → Installed ext (z.setLocations g)
  | tested {z} : Installed ext z → Installed ext z.setupHealthTests

/-- `l'` is `l` with other places and tests. -/
structure Retouched (l l' : Label) : Prop where
  weight : l'.weight = l.weight
  records : ∀ t, ∃ f : Record → Record, (∀ r, (f r).rr = r.rr ∧ (f r).weight = r.weight) ∧
    l'.recordsOf t = (l.recordsOf t).map (List.map f)

section
variable {ext : Externals} {z : Zone} {l l' : Label} {t : RRType} {rs' : List Record}

/-- A label is itself with the same places and tests. -/
lemma Retouched.refl (l : Label) : Retouched l l where
  weight := rfl
  records := fun _ => ⟨id, fun _ => ⟨rfl, rfl⟩, by simp⟩

/-- Putting in places changes places only. -/
lemma retouched_locate (g : Provider) (l : Label) : Retouched l (l.locate g) where
  weight := (locate_rest g l).2.2
  records t := by
    obtain ⟨f, rfl | rfl, e⟩ := recordsOf_locate_map g l t
    · refine ⟨locate g, fun r => ?_, e⟩
      rw [locate_eq]
      exact ⟨rfl, rfl⟩
    · exact ⟨id, fun _ => ⟨rfl, rfl⟩, e⟩

/-- Setting up health tests changes tests only. -/
lemma retouched_setupHealthTests (l : Label) : Retouched l l.setupHealthTests := by
  cases test : l.test with
  | none =>
    rw [LabelOf.setupHealthTests, test]
    exact .refl l
  | some ref =>
    refine ⟨by rw [LabelOf.setupHealthTests, test], fun t => ?_⟩
    refine ⟨setupTest, fun r => ?_, recordsOf_setupHealthTests test t⟩
    unfold setupTest
    split_ifs
    · exact ⟨rfl, rfl⟩
    · split <;> exact ⟨rfl, rfl⟩

/-- The records of the new label are those of the old one with other places and tests. -/
lemma Retouched.of_recordsOf (same : Retouched l l') (h : l'.recordsOf t = some rs') :
    ∃ rs, ∃ f : Record → Record, (∀ r, (f r).rr = r.rr ∧ (f r).weight = r.weight) ∧
      l.recordsOf t = some rs ∧ rs' = rs.map f := by
  obtain ⟨f, hf, e⟩ := same.records t
  rw [h] at e
  obtain ⟨rs, hrs, e⟩ := Option.map_eq_some_iff.mp e.symm
  exact ⟨rs, f, hf, hrs, e.symm⟩

/-- Labels that differ in places and tests have records of the same types. -/
lemma Retouched.recordsOf_none (same : Retouched l l') :
    l'.recordsOf t = none ↔ l.recordsOf t = none := by
  obtain ⟨f, _, e⟩ := same.records t
  rw [e, Option.map_eq_none_iff]

/-- A label with other places and tests is still filed. -/
lemma Retouched.filed (same : Retouched l l') (filed : Filed l) : Filed l' where
  known := by
    intro t rs' h ne
    obtain ⟨rs, f, _, hrs, _⟩ := same.of_recordsOf h
    exact filed.known hrs ne
  types := by
    intro t rs' r' h hr' ne
    obtain ⟨rs, f, hf, hrs, rfl⟩ := same.of_recordsOf h
    obtain ⟨r, hr, rfl⟩ := List.mem_map.mp hr'
    rw [(hf r).1]
    exact filed.types hrs hr ne
  weights := by
    intro t rs' h
    obtain ⟨rs, f, hf, hrs, rfl⟩ := same.of_recordsOf h
    rw [LabelOf.weightOf, same.weight, List.map_map]
    have e : Record.weight ∘ f = Record.weight := funext fun r => (hf r).2
    rw [e]
    exact filed.weights hrs
  blank := by
    intro t h
    rw [LabelOf.weightOf, same.weight]
    exact filed.blank (same.recordsOf_none.mp h)

/-- What the loader has established outlasts other places and tests. -/
lemma Loaded.retouch (loaded : Loaded ext z) {f : Label → Label} (same : ∀ l, Retouched l (f l)) :
    Loaded ext { z with labels := z.labels.mapVals (fun _ => f) } where
  filed := by
    intro k l' hl'
    rw [GoMap.lookup_mapVals] at hl'
    obtain ⟨l, hl, rfl⟩ := Option.map_eq_some_iff.mp hl'
    exact (same l).filed (loaded.filed hl)
  soa := by
    obtain ⟨l, ns, r, hl, hr, hrr⟩ := loaded.soa
    obtain ⟨g, hg, e⟩ := (same l).records typeSOA
    refine ⟨f l, ns, g r, ?_, ?_, ?_⟩
    · rw [GoMap.lookup_mapVals, hl]
      rfl
    · rw [e, hr]
      rfl
    · rw [(hg r).1]
      exact hrr
  soa_only := by
    intro k l' hl' ne
    rw [GoMap.lookup_mapVals] at hl'
    obtain ⟨l, hl, rfl⟩ := Option.map_eq_some_iff.mp hl'
    exact (same l).recordsOf_none.mpr (loaded.soa_only hl ne)

/-- An installed zone is like a loaded one. -/
theorem Installed.loaded (h : Installed ext z) : Loaded ext z := by
  induction h with
  | accepted h => exact h.loaded
  | located g _ ih => exact ih.retouch (retouched_locate g)
  | tested _ ih => exact ih.retouch retouched_setupHealthTests

end

/-! ## Which records are kept -/

section
variable {ext : Externals} {z : Zone} {k : String} {l l' : Label} {t : RRType} {rs rs' : List Record}
variable {r : Record} {ref : HealthReference} {d : String} {registry : Registry}

/-- A record of a label with a health reference, and without a test of its own, stays a candidate exactly
    when the filter returns and the data of the record names a healthy check. -/
lemma candidate_iff (installed : Installed ext z) (hl : z.labels.lookup k = some l)
    (test : l.test = some ref) (hrec : l.recordsOf t = some rs) (ht : t ≠ typeSOA) (hr : r ∈ rs)
    (own : r.test = "") (hd : testData r.rr = some d)
    (hl' : z.setupHealthTests.labels.lookup k = some l') (hrec' : l'.recordsOf t = some rs') :
    (∃ servers sum, candidates (getStatus registry) l' t rs' = .ok (servers, sum) ∧
        setupTest r ∈ servers) ↔
      (∀ r' ∈ rs', ¬ Nulled registry r'.test) ∧
        ∃ file check, splitN2 d '/' = [file, check] ∧ Reports registry file check := by
  have e : l' = l.setupHealthTests := by
    have lookup := GoMap.lookup_mapVals (fun _ l => LabelOf.setupHealthTests l) z.labels k
    rw [hl] at lookup
    exact Option.some.inj (hl'.symm.trans lookup)
  subst e
  rw [recordsOf_setupHealthTests test, hrec] at hrec'
  cases hrec'
  have setup : (setupTest r).test = d := by simp [setupTest, own, hd]
  have ne : (setupTest r).test ≠ "" :=
    setup ▸ testData_ne_empty ((installed.loaded.filed hl).types hrec hr ht) hd
  have filter : candidates (getStatus registry) l.setupHealthTests t (rs.map setupTest) =
      filterHealth (getStatus registry) (rs.map setupTest) := by
    rw [candidates, test_setupHealthTests, test]
  have returns : (∃ servers sum, filterHealth (getStatus registry) (rs.map setupTest) = .ok (servers, sum)) ↔
      ∀ r ∈ rs.map setupTest, ¬ Nulled registry r.test := by
    simp only [filterHealth_returns_iff, passesHealth_returns_iff]
  rw [filter, ← returns, ← getStatus_healthy, ← setup, ← passesHealth_iff ne]
  constructor
  · rintro ⟨servers, sum, h, mem⟩
    exact ⟨⟨servers, sum, h⟩, (((filterHealth_eq_ok h).2.2 _).mp mem).2⟩
  · rintro ⟨⟨servers, sum, h⟩, passes⟩
    exact ⟨servers, sum, h, ((filterHealth_eq_ok h).2.2 _).mpr ⟨List.mem_map_of_mem hr, passes⟩⟩

/-- That a record is kept exactly when the status of its label reports it healthy. This holds for data
    without a slash, as addresses and host names are, only where it is not reported healthy, and for data
    with a slash where the status and check it happens to name are reported alike. Where the filter meets
    a JSON `null` nothing is kept, so that it must not be reported healthy either. -/
theorem candidate_iff_reports_iff (installed : Installed ext z) (hl : z.labels.lookup k = some l)
    (test : l.test = some ref) (hrec : l.recordsOf t = some rs)
    (ht : t = typeA ∨ t = typeAAAA ∨ t = typeMX) (hr : r ∈ rs)
    (own : r.test = "") (hd : testData r.rr = some d)
    (hl' : z.setupHealthTests.labels.lookup k = some l') (hrec' : l'.recordsOf t = some rs') :
    ((∃ servers sum, candidates (getStatus registry) l' t rs' = .ok (servers, sum) ∧
        setupTest r ∈ servers) ↔ Reports registry ref.name d) ↔
      ((∃ r' ∈ rs', Nulled registry r'.test) → ¬ Reports registry ref.name d) ∧
      ((∀ r' ∈ rs', ¬ Nulled registry r'.test) →
        match splitN2 d '/' with
        | [file, check] => (Reports registry ref.name d ↔ Reports registry file check)
        | _ => ¬ Reports registry ref.name d) := by
  have ne : t ≠ typeSOA := by
    rcases ht with rfl | rfl | rfl <;> decide
  rw [candidate_iff installed hl test hrec ne hr own hd hl' hrec']
  by_cases nulled : ∃ r' ∈ rs', Nulled registry r'.test
  · have some : ¬ ∀ r' ∈ rs', ¬ Nulled registry r'.test := by
      intro none
      obtain ⟨r', hr', h⟩ := nulled
      exact none r' hr' h
    simp only [nulled, some, false_and, false_iff, false_imp_iff, and_true, true_imp_iff]
  · have none : ∀ r' ∈ rs', ¬ Nulled registry r'.test := fun r' hr' h => nulled ⟨r', hr', h⟩
    simp only [nulled, false_imp_iff, true_and]
    rw [and_iff_right none, imp_iff_right none]
    rcases splitN2 d '/' with _ | ⟨file, _ | ⟨check, _ | ⟨c, cs⟩⟩⟩
    · simp
    · simp
    · simp only [List.cons.injEq, and_true, exists_eq_left', exists_and_left, and_assoc]
      exact ⟨Iff.symm, Iff.symm⟩
    · simp

end

/-- A zone with one address, at a label with the health reference `web`. -/
def webZone : Zone :=
  smallZone [("www", .obj [("health", .obj [("name", .str "web")]),
    ("a", .arr [.arr [.str "192.0.2.1"]])])]

/-- A registry with the status `web`, which reports this about the address. -/
def webStatus (st : StatusType) : Registry :=
  GoMap.ofPairs [("web", ⟨"web.json", some (GoMap.ofPairs [("192.0.2.1", some st)])⟩)]

/-- The address is reported healthy by the status that its label refers to, and it is no candidate. -/
theorem healthy_record_dropped :
    Accepted smallExternals webZone ∧ testData webRecord.rr = some "192.0.2.1" ∧
      (∃ l, webZone.labels.lookup "www" = some l ∧ l.test = some ⟨"web"⟩ ∧
        l.recordsOf typeA = some [webRecord]) ∧
      (∃ l, webZone.setupHealthTests.labels.lookup "www" = some l ∧
        l.recordsOf typeA = some [setupTest webRecord] ∧
        candidates (getStatus (webStatus statusHealthy)) l typeA [setupTest webRecord] = .ok ([], 0)) ∧
      Reports (webStatus statusHealthy) "web" "192.0.2.1" :=
  ⟨smallZone_accepted rfl, by decide, ⟨_, rfl, rfl, rfl⟩, ⟨_, rfl, rfl, rfl⟩, ⟨_, rfl, rfl⟩⟩

/-- An address that the status of its label reports unhealthy is no candidate, as it should be. -/
theorem unhealthy_record_dropped :
    (∃ status, (webStatus statusUnhealthy).lookup "web" = some status ∧
      status.getStatus "192.0.2.1" = .ok statusUnhealthy) ∧
    ∃ l, webZone.setupHealthTests.labels.lookup "www" = some l ∧
      l.recordsOf typeA = some [setupTest webRecord] ∧
      ((∃ servers sum, candidates (getStatus (webStatus statusUnhealthy)) l typeA [setupTest webRecord] =
          .ok (servers, sum) ∧ setupTest webRecord ∈ servers) ↔
        Reports (webStatus statusUnhealthy) "web" "192.0.2.1") := by
  obtain ⟨l, hl, test, hrec⟩ : ∃ l, webZone.labels.lookup "www" = some l ∧ l.test = some ⟨"web"⟩ ∧
      l.recordsOf typeA = some [webRecord] := ⟨_, rfl, rfl, rfl⟩
  obtain ⟨l', hl', hrec'⟩ : ∃ l', webZone.setupHealthTests.labels.lookup "www" = some l' ∧
      l'.recordsOf typeA = some [setupTest webRecord] := ⟨_, rfl, rfl⟩
  refine ⟨⟨_, rfl, rfl⟩, l', hl', hrec', ?_⟩
  have data : testData webRecord.rr = some "192.0.2.1" := by decide
  have installed : Installed smallExternals webZone := .accepted (smallZone_accepted rfl)
  have unhealthy : ¬ Reports (webStatus statusUnhealthy) "web" "192.0.2.1" := by
    rintro ⟨status, known, healthy⟩
    cases known
    cases healthy
  refine (candidate_iff_reports_iff installed hl test hrec (.inl rfl) List.mem_cons_self rfl data hl'
    hrec').mpr ⟨fun _ => unhealthy, fun _ => ?_⟩
  exact unhealthy

end GeoDNS.Zones
