import GeoDNS.Zones.FindLabels
import GeoDNS.Zones.Loaded
import Mathlib.Data.Set.Finite.Basic

/-!
# When the lookup ends

`FindLabels` follows aliases with no check for loops ("TODO: need to avoid loops here somehow") and
with no check that an entry for aliases has a record in it. So there are three ways a lookup can go,
and each is a matter of the alias graph of the zone, `AliasEdge`:

* it panics exactly when it comes to an unreadable alias before it comes to a loop (`MeetsBadAlias`,
  `panics_iff`);
* otherwise it returns if no loop is reachable, and recurses without end if one is
  (`returns_iff_acyclic_iff`).
-/

namespace GeoDNS.Zones
open GeoDNS.Lib GeoDNS.Dns Relation

/-- Some target makes `a` an alias of `b`. -/
def AliasEdge (z : Zone) (targets : List String) (a b : String) : Prop :=
  ∃ t ∈ targets, aliasOf z a t = some (.ok b)

/-- No name that the aliases of `s` lead to lies on a loop of aliases. -/
def AliasAcyclic (z : Zone) (targets : List String) (s : String) : Prop :=
  ¬ ∃ a, ReflTransGen (AliasEdge z targets) s a ∧ TransGen (AliasEdge z targets) a a

/-- The lookup of `s` returns. -/
def Returns (z : Zone) (targets : List String) (qts : List RRType) (s : String) : Prop :=
  ∃ fuel r, findLabels z targets qts fuel s = .ok r

/-- The lookup of `s` recurses without end. -/
def Diverges (z : Zone) (targets : List String) (qts : List RRType) (s : String) : Prop :=
  ∀ fuel, findLabels z targets qts fuel s = .diverge

/-- Going through the targets in order and following aliases depth first, one comes to an entry for
    aliases that has no first alias, with no loop on the way there. -/
inductive MeetsBadAlias (z : Zone) (targets : List String) : String → Prop
  | here {s t p pre post} : targets = pre ++ t :: post →
      (∀ u ∈ pre, ∀ b, aliasOf z s u = some (.ok b) → AliasAcyclic z targets b) →
      aliasOf z s t = some (.error p) → MeetsBadAlias z targets s
  | there {s t b pre post} : targets = pre ++ t :: post →
      (∀ u ∈ pre, ∀ b, aliasOf z s u = some (.ok b) → AliasAcyclic z targets b) →
      aliasOf z s t = some (.ok b) → MeetsBadAlias z targets b → MeetsBadAlias z targets s

section
variable {z : Zone} {targets : List String} {qts : List RRType} {s : String}

/-! ## The lookup as a recursion -/

/-- What a lookup returns does not depend on the depth it was given. -/
lemma value_of_findLabels {fuel : Nat} {r : List LabelMatch}
    (h : findLabels z targets qts fuel s = .ok r) : (lookupRec z targets qts).value s = .ok r := by
  rw [findLabels_eq_run] at h
  exact ((lookupRec z targets qts).value_eq_iff_run (by simp)).mpr ⟨fuel, h⟩

/-- A lookup returns if its value is a result. -/
lemma returns_iff :
    Returns z targets qts s ↔ ∃ r, (lookupRec z targets qts).value s = .ok r := by
  constructor
  · rintro ⟨fuel, r, h⟩
    exact ⟨r, value_of_findLabels h⟩
  · rintro ⟨r, h⟩
    obtain ⟨fuel, h⟩ := ((lookupRec z targets qts).value_eq_iff_run (by simp)).mp h
    exact ⟨fuel, r, by rw [findLabels_eq_run, h]⟩

/-- A lookup does not end if and only if it has no value. -/
lemma diverges_iff : Diverges z targets qts s ↔ (lookupRec z targets qts).value s = .diverge := by
  rw [← not_iff_not, ← ne_eq, ← Recursion.ends_iff]
  simp only [Diverges, findLabels_eq_run, Recursion.Ends, not_forall, ne_eq]

/-- The calls are along the aliases. -/
lemma calls_iff (hq : typeMF ∈ qts) {a b : String} :
    (lookupRec z targets qts).Calls a b ↔ AliasEdge z targets a b := by
  show b ∈ aliasCalls z targets qts a ↔ _
  rw [mem_aliasCalls]
  exact and_iff_right hq

/-- The names that a zone's aliases point to. -/
def aliasNames (z : Zone) : List String :=
  z.labels.entries.filterMap (fun e => (aliasEntry e.2).bind Except.toOption)

/-- An alias leads to one of finitely many names. -/
lemma aliasEdge_mem {a b : String} (h : AliasEdge z targets a b) : b ∈ aliasNames z := by
  obtain ⟨t, _, he⟩ := h
  obtain ⟨l, hl, hb⟩ := Option.bind_eq_some_iff.mp he
  refine List.mem_filterMap.mpr ⟨⟨_, l⟩, GoMap.mem_entries_iff.mpr hl, ?_⟩
  rw [hb]
  rfl

/-- Only finitely many names are reachable, as a zone has finitely many labels. -/
lemma reachable_finite (z : Zone) (targets : List String) (s : String) :
    {b | ReflTransGen (AliasEdge z targets) s b}.Finite := by
  apply Set.Finite.subset (List.finite_toSet (s :: aliasNames z))
  intro b reach
  rcases ReflTransGen.cases_tail reach with rfl | ⟨c, _, edge⟩
  · exact List.mem_cons_self
  · exact List.mem_cons_of_mem _ (aliasEdge_mem edge)

/-- So the recursion is well-founded from a name if and only if no cycle is reached. -/
lemma acc_iff_acyclic (hq : typeMF ∈ qts) :
    Acc (flip (lookupRec z targets qts).Calls) s ↔ AliasAcyclic z targets s := by
  have e : (lookupRec z targets qts).Calls = AliasEdge z targets := by
    funext a b
    exact propext (calls_iff hq)
  rw [e]
  exact Recursion.acc_iff_not_cycle (reachable_finite z targets s)

/-- A lookup that returns meets no cycle. -/
lemma acyclic_of_value (hq : typeMF ∈ qts) {r : List LabelMatch}
    (h : (lookupRec z targets qts).value s = .ok r) : AliasAcyclic z targets s :=
  (acc_iff_acyclic hq).mp ((lookupRec z targets qts).returns_acc h)

/-- A lookup without a cycle ends. -/
lemma value_ne_diverge (hq : typeMF ∈ qts) (h : AliasAcyclic z targets s) :
    (lookupRec z targets qts).value s ≠ .diverge :=
  (Recursion.ends_iff _).mp ((lookupRec z targets qts).ends_of_acc ((acc_iff_acyclic hq).mpr h))

/-! ## Panics -/

/-- A lookup that panics has come to a bad alias, by induction over its depth. -/
lemma meetsBadAlias_of_run (hq : typeMF ∈ qts) {n : Nat} {p : Panic}
    (h : (lookupRec z targets qts).run n s = .panic p) : MeetsBadAlias z targets s := by
  induction n generalizing s with
  | zero => cases h
  | succ n ih =>
    obtain ⟨pre, t, post, e, hpre, ht⟩ := Res.collect_eq_panic.mp (findBody_eq_panic.mp h)
    have before : ∀ u ∈ pre, ∀ b, aliasOf z s u = some (.ok b) → AliasAcyclic z targets b := by
      intro u hu b hb
      obtain ⟨x, hx⟩ := hpre u hu
      obtain ⟨y, hy, _⟩ := matchTarget_follows hx hq hb
      apply acyclic_of_value hq
      exact ((lookupRec z targets qts).value_eq_iff_run (by simp)).mpr ⟨n, hy⟩
    rcases (matchTarget_eq_panic.mp ht).2 with bad | ⟨b, hb, bad⟩
    · exact .here e before bad
    · exact .there e before hb (ih bad)

/-- A lookup that comes to a panic at some target panics there, or before. -/
lemma value_panics (hq : typeMF ∈ qts) {pre post : List String} {t : String} {p : Panic}
    (e : targets = pre ++ t :: post)
    (before : ∀ u ∈ pre, ∀ b, aliasOf z s u = some (.ok b) → AliasAcyclic z targets b)
    (bad : matchTarget z qts (lookupRec z targets qts).value s t = .panic p) :
    ∃ p', (lookupRec z targets qts).value s = .panic p' := by
  have noLoop : ∀ u ∈ pre, matchTarget z qts (lookupRec z targets qts).value s u ≠ .diverge := by
    intro u hu
    apply matchTarget_ne_diverge
    intro _ b hb
    exact value_ne_diverge hq (before u hu b hb)
  obtain ⟨p', hp'⟩ : ∃ p', Res.collect (matchTarget z qts (lookupRec z targets qts).value s)
      (pre ++ t :: post) = .panic p' := Res.collect_panics noLoop bad
  refine ⟨p', ?_⟩
  rw [Recursion.value_eq]
  show findBody z targets qts _ s = .panic p'
  rw [findBody_eq_panic]
  nth_rewrite 2 [e]
  exact hp'

/-- A lookup panics if and only if it meets a bad alias. -/
theorem panics_iff (hq : typeMF ∈ qts) :
    (∃ p, (lookupRec z targets qts).value s = .panic p) ↔ MeetsBadAlias z targets s := by
  constructor
  · rintro ⟨p, h⟩
    obtain ⟨n, h⟩ := ((lookupRec z targets qts).value_eq_iff_run (by simp)).mp h
    exact meetsBadAlias_of_run hq h
  · intro h
    induction h with
    | here e before bad =>
      exact value_panics hq e before (matchTarget_eq_panic.mpr ⟨hq, .inl bad⟩)
    | there e before hb _ ih =>
      obtain ⟨p, hp⟩ := ih
      exact value_panics hq e before (matchTarget_eq_panic.mpr ⟨hq, .inr ⟨_, hb, hp⟩⟩)

/-- Whether a lookup returns does not depend on the query type. -/
lemma Returns.of_types {qts' : List RRType} (h : Returns z targets qts s) (hq : typeMF ∈ qts)
    (hq' : typeMF ∈ qts') : Returns z targets qts' s := by
  obtain ⟨r, h⟩ := returns_iff.mp h
  apply returns_iff.mpr
  cases h' : (lookupRec z targets qts').value s with
  | ok r' => exact ⟨r', rfl⟩
  | panic p =>
    obtain ⟨p', hp'⟩ := (panics_iff hq).mpr ((panics_iff hq').mp ⟨p, h'⟩)
    rw [h] at hp'
    cases hp'
  | diverge => exact (value_ne_diverge hq' (acyclic_of_value hq h) h').elim

/-! ## Termination -/

/-- The lookup returns exactly without a reachable loop of aliases, and recurses without end exactly
    with one, for the zones and queries where it does not come to an entry for aliases without a first
    alias, and for no others. -/
theorem returns_iff_acyclic_iff (hq : typeMF ∈ qts) :
    ((Returns z targets qts s ↔ AliasAcyclic z targets s) ∧
      (Diverges z targets qts s ↔ ¬ AliasAcyclic z targets s)) ↔ ¬ MeetsBadAlias z targets s := by
  rw [returns_iff, diverges_iff, ← panics_iff hq]
  cases hv : (lookupRec z targets qts).value s with
  | ok r =>
    have acyclic := acyclic_of_value hq hv
    simp [acyclic]
  | panic p =>
    by_cases acyclic : AliasAcyclic z targets s <;> simp [acyclic]
  | diverge =>
    have cyclic : ¬ AliasAcyclic z targets s := fun h => value_ne_diverge hq h hv
    simp [cyclic]

/-- If no label has a bad alias, none is met. -/
lemma not_meetsBadAlias (h : ∀ e ∈ z.labels.entries, ∀ p, aliasEntry e.2 ≠ some (.error p)) :
    ¬ MeetsBadAlias z targets s := by
  intro bad
  induction bad with
  | here _ _ he =>
    obtain ⟨l, hl, he⟩ := Option.bind_eq_some_iff.mp he
    exact h _ (GoMap.mem_entries_iff.mpr hl) _ he
  | there _ _ _ _ ih => exact ih

/-- A lookup that panics does not return. -/
lemma not_returns_of_panic {fuel : Nat} {p : Panic}
    (h : findLabels z targets qts fuel s = .panic p) : ¬ Returns z targets qts s := by
  rw [findLabels_eq_run] at h
  rw [returns_iff]
  rintro ⟨r, hr⟩
  rw [((lookupRec z targets qts).value_eq_iff_run (by simp)).mpr ⟨fuel, h⟩] at hr
  cases hr

end

/-- Two zones that a file may describe. In the first the array of aliases of `a` is empty, and the lookup
    of `a` panics where there is no loop; in the second that of `a.t` is, and the lookup of `a` panics
    although `a` is an alias of itself. -/
theorem empty_alias_panics :
    let z1 := smallZone [("a", .obj [("alias", .arr [])])]
    let z2 := smallZone [("a", .obj [("alias", .str "a")]), ("a.t", .obj [("alias", .arr [])])]
    (Accepted smallExternals z1 ∧ AliasAcyclic z1 ["@"] "a" ∧
      ¬ Returns z1 ["@"] [typeMF, typeCNAME, typeA] "a") ∧
    (Accepted smallExternals z2 ∧ ¬ AliasAcyclic z2 ["t", "@"] "a" ∧
      ¬ Diverges z2 ["t", "@"] [typeMF, typeCNAME, typeA] "a") := by
  intro z1 z2
  refine ⟨⟨smallZone_accepted rfl, ?_, ?_⟩, ⟨smallZone_accepted rfl, ?_, ?_⟩⟩
  · -- no alias of the zone points anywhere
    rintro ⟨a, _, cycle⟩
    obtain ⟨b, _, edge⟩ := TransGen.tail'_iff.mp cycle
    have mem : a ∈ aliasNames z1 := aliasEdge_mem edge
    cases mem
  · have panics : findLabels z1 ["@"] [typeMF, typeCNAME, typeA] 1 "a" = .panic .index := rfl
    exact not_returns_of_panic panics
  · intro acyclic
    have edge : AliasEdge z2 ["t", "@"] "a" "a" := ⟨"@", by simp, rfl⟩
    exact acyclic ⟨"a", .refl, .single edge⟩
  · intro diverges
    have panics : findLabels z2 ["t", "@"] [typeMF, typeCNAME, typeA] 1 "a" = .panic .index := rfl
    rw [diverges 1] at panics
    cases panics

/-- Two labels that are aliases of each other. -/
theorem mutual_alias_diverges :
    typeMF ∈ [typeMF, typeCNAME, typeA] ∧
      Diverges (smallZone [("a", .obj [("alias", .str "b")]), ("b", .obj [("alias", .str "a")])])
        ["@"] [typeMF, typeCNAME, typeA] "a" := by
  refine ⟨by decide, ?_⟩
  generalize hz : smallZone _ = z
  have good : ¬ MeetsBadAlias z ["@"] "a" := by
    subst hz
    apply not_meetsBadAlias
    intro e he
    rcases he with _ | ⟨_, _ | ⟨_, _ | ⟨_, he⟩⟩⟩
    · nofun
    · nofun
    · nofun
    · cases he
  have edges : AliasEdge z ["@"] "a" "b" ∧ AliasEdge z ["@"] "b" "a" := by
    subst hz
    exact ⟨⟨"@", by simp, rfl⟩, ⟨"@", by simp, rfl⟩⟩
  apply ((returns_iff_acyclic_iff (by decide)).mpr good).2.mpr
  intro acyclic
  exact acyclic ⟨"a", .refl, .tail (.single edges.1) edges.2⟩

end GeoDNS.Zones
