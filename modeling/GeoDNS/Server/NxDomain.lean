import GeoDNS.Server.Serve
import GeoDNS.Zones.Installed
import GeoDNS.Zones.Matches

/-!
# Names that exist for some query types only

A name exists for every query type or for none, so a resolver may conclude from one `NXDOMAIN` that the
name has no records at all. `FindLabels` sees to that with its fallback, a match of type 0 for a label
without records of the type, but it falls back to the label of the name itself only. A name that is
there for some targets and has no label of its own is found for the types that it has records of, and
not found for the others. `nxdomain_for_every_type_iff` says that this is the only exception, apart
from zones whose names are addresses: there a query for an address never gets as far as the lookup.
-/

namespace GeoDNS.Server
open GeoDNS.Lib GeoDNS.Dns GeoDNS.Targeting GeoDNS.Zones Relation

/-- Whether the lookup of `s` finds anything is the same for all query types. -/
def FindsForEveryType (z : Zone) (targets : List String) (s : String) : Prop :=
  ∀ q1 q2 fuel1 fuel2 r1 r2, findLabels z targets [typeMF, typeCNAME, q1] fuel1 s = .ok r1 →
    findLabels z targets [typeMF, typeCNAME, q2] fuel2 s = .ok r2 → (r1 = [] ↔ r2 = [])

/-- A request with this question. -/
def query (req : Msg) (name : String) (qtype : RRType) : Msg :=
  { req with question := [⟨name, qtype, classINET⟩] }

/-- The first message says that the name does not exist. -/
def DeniesName (msgs : List Msg) : Prop :=
  ∃ m, msgs.head? = some m ∧ m.rcode = rcodeNameError

/-- Whether `serve` denies a name is the same for all query types. -/
def ServesForEveryType (env : Env) (srv : ServerConfig) (w : RemoteAddr) (req : Msg) (z : Zone)
    (name : String) : Prop :=
  ∀ q1 q2 fuel1 fuel2 msgs1 msgs2, serve env srv fuel1 w (query req name q1) z = .ok msgs1 →
    serve env srv fuel2 w (query req name q2) z = .ok msgs2 → (DeniesName msgs1 ↔ DeniesName msgs2)

/-- Some name on the way along the aliases of `s` is a label, or has canonical names for a target. -/
def Shown (z : Zone) (targets : List String) (s : String) : Prop :=
  ∃ a, ReflTransGen (AliasEdge z targets) s a ∧ (a ∈ z.labels ∨
    ∃ t ∈ targets, ∃ l r rs, z.labels.lookup (targetName a t) = some l ∧
      l.recordsOf typeCNAME = some (r :: rs))

/-- No target has a label for `s`. -/
def Untargeted (z : Zone) (targets : List String) (s : String) : Prop :=
  ∀ t ∈ targets, targetName s t ∉ z.labels

section
variable {ext : Externals} {z : Zone} {targets : List String} {s a : String} {q : RRType}
variable {r : List LabelMatch} {qts : List RRType}

/-! ## The lookup -/

/-- Reaching along aliases is following the edges. -/
lemma aliasReach_iff_edges (hq : typeMF ∈ qts) :
    AliasReach z targets qts s a ↔ ReflTransGen (AliasEdge z targets) s a := by
  simp only [AliasReach, hq, true_and]

/-- The lookup of a name that is shown finds something. -/
lemma shown_ne_nil (shown : Shown z targets s)
    (h : (lookupRec z targets [typeMF, typeCNAME, q]).value s = .ok r) : r ≠ [] := by
  intro empty
  obtain ⟨a, reach, ha⟩ := shown
  have none := (value_eq_nil_iff h).mp empty a ((aliasReach_iff_edges (by simp)).mpr reach)
  rcases ha with label | ⟨t, ht, l, rec, recs, hl, hrec⟩
  · exact none.1 label
  · exact none.2 _ (.records (by simp) (by decide) (by decide) ht hl hrec)

/-- A name that is not shown for every type is found through the records of the query type only, or
    with type `ANY` at any label. -/
lemma eq_nil_of_not_shown (hidden : ¬ Shown z targets s)
    (h : (lookupRec z targets [typeMF, typeCNAME, q]).value s = .ok r)
    (none : q = typeMF ∨ ∀ a, ReflTransGen (AliasEdge z targets) s a → Untargeted z targets a) :
    r = [] := by
  apply (value_eq_nil_iff h).mpr
  intro a reach
  rw [aliasReach_iff_edges (by simp)] at reach
  refine ⟨fun label => hidden ⟨a, reach, .inl label⟩, ?_⟩
  intro m own
  cases own with
  | any hq ht mem =>
    rcases none with rfl | none
    · revert hq
      decide
    · exact none a reach _ ht mem
  | @records t l q' rec recs hq hany hmf ht hl hrec =>
    have label : targetName a t ∈ z.labels := AList.lookup_isSome.mp (by simp [hl])
    rcases none with rfl | none
    · have cname : q' = typeCNAME := by simpa [hmf] using hq
      subst cname
      exact hidden ⟨a, reach, .inr ⟨t, ht, l, rec, recs, hl, hrec⟩⟩
    · exact none a reach t ht label

/-- Without a label there is no alias to follow. -/
lemma Untargeted.reach (h : Untargeted z targets s) (reach : ReflTransGen (AliasEdge z targets) s a) :
    Untargeted z targets a := by
  rcases ReflTransGen.cases_head reach with rfl | ⟨b, ⟨t, ht, he⟩, _⟩
  · exact h
  · obtain ⟨l, hl, _⟩ := Option.bind_eq_some_iff.mp he
    exact (h t ht (AList.lookup_isSome.mp (by simp [hl]))).elim

/-- A name that is not shown, and has no label for a target, is not found, whatever the type. -/
lemma finds_nothing (returns : Returns z targets [typeMF, typeCNAME, q] s)
    (hidden : ¬ Shown z targets s) (none : Untargeted z targets s) (q' : RRType) :
    ∃ fuel, findLabels z targets [typeMF, typeCNAME, q'] fuel s = .ok [] := by
  obtain ⟨fuel, r, h⟩ : Returns z targets [typeMF, typeCNAME, q'] s :=
    returns.of_types (by simp) (by simp)
  have empty : r = [] :=
    eq_nil_of_not_shown hidden (value_of_findLabels h) (.inr fun _ reach => none.reach reach)
  exact ⟨fuel, by rw [h, empty]⟩

/-- When the lookup finds something for all types or for none. -/
theorem findsForEveryType_iff (returns : Returns z targets [typeMF, typeCNAME, q] s) :
    FindsForEveryType z targets s ↔ Shown z targets s ∨ Untargeted z targets s := by
  constructor
  · intro same
    by_contra! none
    obtain ⟨hidden, targeted⟩ := none
    -- the types that tell the two apart
    obtain ⟨fuel1, r1, h1⟩ : Returns z targets [typeMF, typeCNAME, typeMF] s :=
      returns.of_types (by simp) (by simp)
    obtain ⟨fuel2, r2, h2⟩ : Returns z targets [typeMF, typeCNAME, typeANY] s :=
      returns.of_types (by simp) (by simp)
    have empty : r1 = [] := eq_nil_of_not_shown hidden (value_of_findLabels h1) (.inl rfl)
    have none := (value_eq_nil_iff (value_of_findLabels h2)).mp ((same _ _ _ _ _ _ h1 h2).mp empty)
    apply targeted
    intro t ht label
    exact (none s .refl).2 _ (.any (by simp) ht label)
  · intro cond q1 q2 fuel1 fuel2 r1 r2 h1 h2
    by_cases shown : Shown z targets s
    · exact iff_of_false (shown_ne_nil shown (value_of_findLabels h1))
        (shown_ne_nil shown (value_of_findLabels h2))
    · have none : ∀ a, ReflTransGen (AliasEdge z targets) s a → Untargeted z targets a :=
        fun _ reach => (cond.resolve_left shown).reach reach
      exact iff_of_true (eq_nil_of_not_shown shown (value_of_findLabels h1) (.inr none))
        (eq_nil_of_not_shown shown (value_of_findLabels h2) (.inr none))

/-! ## The reply -/

variable {env : Env} {srv : ServerConfig} {w : RemoteAddr} {req : Msg} {name : String} {fuel : Nat}
variable {msgs : List Msg}

/-- `serve` denies a name when it looks it up, finds nothing and does not answer for it itself. -/
lemma deniesName_iff (hname : getQuestionName z name = .ok s)
    (h : serve env srv fuel w (query req name q) z = .ok msgs) :
    DeniesName msgs ↔ ¬ (q = typeA ∧ z.parseIP) ∧ ¬ ownName srv (askerOf env w req z) s ∧
      ∃ fuel, findLabels z (askerOf env w req z).targets [typeMF, typeCNAME, q] fuel s = .ok [] := by
  have success : rcodeSuccess ≠ rcodeNameError := by decide
  obtain ⟨m, hm, hreply⟩ := serve_eq_ok rfl h
  have first : DeniesName msgs ↔ m.rcode = rcodeNameError := by simp [DeniesName, hm]
  rw [first]
  split_ifs at hreply with parse
  · rw [hreply]
    exact iff_of_false success (fun h => h.1 parse)
  · obtain ⟨s', found, hname', hfind, hreply⟩ := hreply
    rw [show getQuestionName z name = .ok s' from hname'] at hname
    cases hname
    rcases hreply with ⟨rfl, hm⟩ | ⟨ne, hm⟩
    · rcases noMatch_eq_ok hm with ⟨own, rcode⟩ | ⟨strange, denied, _⟩
      · rw [rcode]
        exact iff_of_false success (fun h => h.2.1 own)
      · exact iff_of_true denied ⟨parse, strange, fuel, hfind⟩
    · rw [(matched_eq_ok hm).1]
      refine iff_of_false success ?_
      rintro ⟨_, _, fuel', nothing⟩
      have same := (value_of_findLabels hfind).symm.trans (value_of_findLabels nothing)
      exact ne (Res.ok.inj same)

/-- If nothing is found, there is a reply. -/
lemma serve_returns_of_nil {soa : RR} (hsoa : z.soaRR = .ok soa)
    (hname : getQuestionName z name = .ok s) (noParse : ¬ (q = typeA ∧ z.parseIP))
    (h : findLabels z (askerOf env w req z).targets [typeMF, typeCNAME, q] fuel s = .ok []) :
    ∃ msgs, serve env srv fuel w (query req name q) z = .ok msgs := by
  obtain ⟨m, hm⟩ : ∃ m, noMatch env srv w (query req name q) z (askerOf env w req z)
    ⟨name, q, classINET⟩ s = .ok m := noMatch_returns hsoa
  refine ⟨[m], ?_⟩
  show (if q = typeA ∧ z.parseIP then _ else _) = _
  rw [if_neg noParse, hname]
  show (findLabels z (askerOf env w req z).targets [typeMF, typeCNAME, q] fuel s >>= _) = _
  rw [h]
  show (noMatch env srv w (query req name q) z (askerOf env w req z) _ s >>= _) = _
  rw [hm]
  rfl

/-- In a zone whose names are addresses, a name that is never found is denied for some types only. -/
lemma parseIP_denies_some (installed : Installed ext z)
    (returns : Returns z (askerOf env w req z).targets [typeMF, typeCNAME, q] s)
    (hname : getQuestionName z name = .ok s)
    (hidden : ¬ Shown z (askerOf env w req z).targets s)
    (none : Untargeted z (askerOf env w req z).targets s) (parse : z.parseIP = true)
    (strange : ¬ ownName srv (askerOf env w req z) s) : ¬ ServesForEveryType env srv w req z name := by
  intro same
  -- a query for an address is answered, and one of another type is denied
  have h1 : serve env srv 0 w (query req name typeA) z = .ok [parseIPReply (query req name typeA) name] :=
    if_pos ⟨rfl, parse⟩
  obtain ⟨fuel, empty⟩ := finds_nothing returns hidden none typeMF
  have lookedUp : ¬ (typeMF = typeA ∧ z.parseIP) := fun h => absurd h.1 (by decide)
  obtain ⟨ns, soa, hsoa, _⟩ := installed.loaded.soaRR
  obtain ⟨msgs, h2⟩ : ∃ msgs, serve env srv fuel w (query req name typeMF) z = .ok msgs :=
    serve_returns_of_nil hsoa hname lookedUp empty
  have denied := (deniesName_iff hname h2).mpr ⟨lookedUp, strange, fuel, empty⟩
  exact ((deniesName_iff hname h1).mp ((same _ _ _ _ _ _ h1 h2).mpr denied)).1 ⟨rfl, parse⟩

/-- A name that is shown is denied for no type. -/
lemma servesForEveryType_of_shown (hname : getQuestionName z name = .ok s)
    (shown : Shown z (askerOf env w req z).targets s) : ServesForEveryType env srv w req z name := by
  intro q1 q2 fuel1 fuel2 msgs1 msgs2 h1 h2
  rw [deniesName_iff hname h1, deniesName_iff hname h2]
  have found : ∀ q', ¬ ∃ fuel,
      findLabels z (askerOf env w req z).targets [typeMF, typeCNAME, q'] fuel s = .ok [] := by
    rintro q' ⟨fuel, h⟩
    exact shown_ne_nil shown (value_of_findLabels h) rfl
  exact iff_of_false (fun h => found q1 h.2.2) (fun h => found q2 h.2.2)

/-- One that is neither shown nor targeted is treated alike for all types. -/
lemma servesForEveryType_of_hidden
    (returns : Returns z (askerOf env w req z).targets [typeMF, typeCNAME, q] s)
    (hname : getQuestionName z name = .ok s)
    (hidden : ¬ Shown z (askerOf env w req z).targets s)
    (none : Untargeted z (askerOf env w req z).targets s)
    (cond : z.parseIP = false ∨ ownName srv (askerOf env w req z) s) :
    ServesForEveryType env srv w req z name := by
  intro q1 q2 fuel1 fuel2 msgs1 msgs2 h1 h2
  rw [deniesName_iff hname h1, deniesName_iff hname h2]
  rcases cond with noParse | own
  · have lookedUp : ∀ q', ¬ (q' = typeA ∧ z.parseIP) := by simp [noParse]
    simp only [lookedUp, not_false_eq_true, true_and, finds_nothing returns hidden none]
  · exact iff_of_false (fun h => h.2.1 own) (fun h => h.2.1 own)

/-- In a zone in service, at a name whose lookup returns: the lookup finds something for every query type
    or for none exactly if the name is shown for every type or no target has a label for it. That
    `serve` denies the name for every type or for none follows if, in the second case, the zone's names
    are no addresses or the server answers for the name itself, and not otherwise. -/
theorem nxdomain_for_every_type_iff (installed : Installed ext z)
    (returns : Returns z targets [typeMF, typeCNAME, q] s) :
    (FindsForEveryType z targets s ↔ Shown z targets s ∨ Untargeted z targets s) ∧
    ∀ env srv w req name, getQuestionName z name = .ok s → (askerOf env w req z).targets = targets →
      (FindsForEveryType z targets s ∧ ServesForEveryType env srv w req z name ↔
        Shown z targets s ∨ (Untargeted z targets s ∧
          (z.parseIP = false ∨ ownName srv (askerOf env w req z) s))) := by
  refine ⟨findsForEveryType_iff returns, ?_⟩
  intro env srv w req name hname ht
  subst ht
  rw [findsForEveryType_iff returns]
  by_cases shown : Shown z (askerOf env w req z).targets s
  · exact iff_of_true ⟨.inl shown, servesForEveryType_of_shown hname shown⟩ (.inl shown)
  constructor
  · rintro ⟨cond, same⟩
    have none := cond.resolve_left shown
    refine .inr ⟨none, ?_⟩
    by_contra! strange
    exact parseIP_denies_some installed returns hname shown none (by simpa using strange.1) strange.2 same
  · intro cond
    obtain ⟨none, cond⟩ := cond.resolve_left shown
    exact ⟨.inr none, servesForEveryType_of_hidden returns hname shown none cond⟩

end

/-- The zone `example.com` with an address for clients in Europe only. -/
def europeZone : Zone :=
  smallZone [("www.europe", .obj [("a", .arr [.arr [.str "192.0.2.1"]])])]

/-- A client in Europe is told that the name does not exist when it asks for another type. -/
theorem targeted_name_denied :
    Accepted smallExternals europeZone ∧
    findLabels europeZone ["dk", "europe", "@"] [typeMF, typeCNAME, typeA] 1 "www" =
      .ok [⟨europeZone.labels.lookup "www.europe", typeA⟩] ∧
    findLabels europeZone ["dk", "europe", "@"] [typeMF, typeCNAME, typeAAAA] 1 "www" = .ok [] ∧
    (∃ msgs, serve smallEnv smallServer 1 smallClient (query {} "www.example.com." typeA) europeZone =
      .ok msgs ∧ ¬ DeniesName msgs) ∧
    (∃ msgs, serve smallEnv smallServer 1 smallClient (query {} "www.example.com." typeAAAA)
      europeZone = .ok msgs ∧ DeniesName msgs) := by
  refine ⟨smallZone_accepted rfl, rfl, rfl, ⟨_, rfl, ?_⟩, ⟨_, rfl, _, rfl, rfl⟩⟩
  rintro ⟨m, hm, denied⟩
  cases hm
  cases denied

/-- A name with a label of its own exists for every type. -/
theorem labelled_name_found :
    (Installed smallExternals smallWeb ∧
      Returns smallWeb ["dk", "europe", "@"] [typeMF, typeCNAME, typeA] "www") ∧
    FindsForEveryType smallWeb ["dk", "europe", "@"] "www" ∧
    ServesForEveryType smallEnv smallServer smallClient {} smallWeb "www.example.com." := by
  have installed : Installed smallExternals smallWeb := .accepted smallWeb_accepted
  have returns : Returns smallWeb ["dk", "europe", "@"] [typeMF, typeCNAME, typeA] "www" := ⟨1, _, rfl⟩
  have shown : Shown smallWeb ["dk", "europe", "@"] "www" :=
    ⟨"www", .refl, .inl (AList.lookup_isSome.mp rfl)⟩
  have hname : getQuestionName smallWeb "www.example.com." = .ok "www" := by decide +kernel
  have ht : (askerOf smallEnv smallClient {} smallWeb).targets = ["dk", "europe", "@"] := by
    decide +kernel
  have cond := (nxdomain_for_every_type_iff installed returns).2 _ smallServer _ _ _ hname ht
  exact ⟨⟨installed, returns⟩, cond.mpr (.inl shown)⟩

end GeoDNS.Server
