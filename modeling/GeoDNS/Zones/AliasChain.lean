import GeoDNS.Zones.Termination

/-!
# Chains of aliases

A label that has aliases and nothing else stands for the name that its first alias points to. The lookup
of such a name finds what the lookup of that name finds, match by match, however long the chain of
aliases is (`alias_transparent`). At a name that is not found the chain ends with a match of type 0, so
that the query is answered without records rather than denied.

Each recursive call goes through all targets again; it is the target `@` alone that finds the labels of
the chain, so the argument is about one target of the list (`Res.collect_one`) and one step of the chain
(`findBody_aliasStep`).
-/

namespace GeoDNS.Zones
open GeoDNS.Lib GeoDNS.Dns Relation

/-- The label of `x` has aliases and no other records, the first alias is for `y`, and no target but `@`
    has a label for `x`. -/
structure AliasStep (z : Zone) (targets : List String) (x y : String) : Prop where
  label : ∃ l, z.labels.lookup x = some l ∧ aliasEntry l = some (.ok y) ∧
    ∀ t, t ≠ typeMF → ∀ r rs, l.recordsOf t ≠ some (r :: rs)
  untargeted : ∀ t ∈ targets, t ≠ "@" → targetName x t ∉ z.labels

section
variable {z : Zone} {targets : List String} {q : RRType} {x y : String} {l : Label}
variable {f : String → Res (List LabelMatch)} {r : List LabelMatch}

/-- Without records of a type there is no match for it. -/
lemma matchType_absent (hany : q ≠ typeANY) (hmf : q ≠ typeMF)
    (absent : ∀ r rs, l.recordsOf q ≠ some (r :: rs)) : matchType z f x l q = .ok [] := by
  rw [matchType, if_neg hany, if_neg hmf]
  split
  · rename_i r rs h
    exact (absent r rs h).elim
  · rfl

/-- One step along a chain: the matches of the next name, or the label itself if there are none. -/
lemma findBody_aliasStep (step : AliasStep z targets x y) (once : targets.count "@" = 1)
    (hany : q ≠ typeANY) (hmf : q ≠ typeMF) (next : f y = .ok r) :
    ∃ l, findBody z targets [typeMF, typeCNAME, q] f x =
      .ok (if r = [] then [⟨some l, 0⟩] else r) := by
  obtain ⟨l, hl, points, absent⟩ := step.label
  have here : matchTarget z [typeMF, typeCNAME, q] f x "@" = .ok r := by
    have name : targetName x "@" = x := if_pos rfl
    rw [matchTarget, name, hl]
    dsimp only [Res.collect]
    rw [matchType_mf, points, matchType_absent (by decide) (by decide) (absent _ (by decide)),
      matchType_absent hany hmf (absent q hmf)]
    dsimp only
    rw [next]
    simp
  have others : ∀ t ∈ targets, t ≠ "@" → matchTarget z [typeMF, typeCNAME, q] f x t = .ok [] := by
    intro t ht ne
    rw [matchTarget, AList.lookup_eq_none.mpr (step.untargeted t ht ne)]
  refine ⟨l, findBody_eq_ok.mpr ⟨r, Res.collect_one once here others, ?_⟩⟩
  by_cases empty : r = []
  · rw [if_pos empty, hl]
    exact .inr ⟨empty, rfl⟩
  · rw [if_neg empty]
    exact .inl ⟨empty, rfl⟩

/-- A chain of aliases from `x` to `y`: what the lookup of `y` finds, the lookup of `x` finds; and if it
    finds nothing, the lookup of `x` finds matches of type 0. -/
theorem alias_transparent (chain : TransGen (AliasStep z targets) x y) (once : targets.count "@" = 1)
    (hany : q ≠ typeANY) (hmf : q ≠ typeMF) {fuel : Nat}
    (h : findLabels z targets [typeMF, typeCNAME, q] fuel y = .ok r) :
    (r ≠ [] → ∃ fuel', findLabels z targets [typeMF, typeCNAME, q] fuel' x = .ok r) ∧
      (r = [] → ∃ fuel' r', findLabels z targets [typeMF, typeCNAME, q] fuel' x = .ok r' ∧ r' ≠ [] ∧
        ∀ m ∈ r', m.type = 0) := by
  -- from the end of the chain to its beginning
  induction chain using TransGen.head_induction_on with
  | single step =>
    obtain ⟨l, hbody⟩ := findBody_aliasStep step once hany hmf h
    constructor
    · intro ne
      rw [if_neg ne] at hbody
      exact ⟨fuel + 1, hbody⟩
    · intro empty
      rw [if_pos empty] at hbody
      exact ⟨fuel + 1, _, hbody, by simp, by simp⟩
  | head step _ ih =>
    constructor
    · intro ne
      obtain ⟨fuel', h'⟩ := ih.1 ne
      obtain ⟨l, hbody⟩ := findBody_aliasStep step once hany hmf h'
      rw [if_neg ne] at hbody
      exact ⟨fuel' + 1, hbody⟩
    · intro empty
      obtain ⟨fuel', r', h', ne, types⟩ := ih.2 empty
      obtain ⟨l, hbody⟩ := findBody_aliasStep step once hany hmf h'
      rw [if_neg ne] at hbody
      exact ⟨fuel' + 1, r', hbody, ne, types⟩

end

/-- Two aliases in a row that lead to an address, for a client with a country. -/
theorem alias_chain_address :
    let z := smallZone [("ftp", .obj [("alias", .str "www")]), ("www", .obj [("alias", .str "web")]),
      ("web", .obj [("a", .arr [.arr [.str "192.0.2.1"]])])]
    ∃ fuel l, z.labels.lookup "web" = some l ∧
      findLabels z ["dk", "@"] [typeMF, typeCNAME, typeA] fuel "ftp" = .ok [⟨some l, typeA⟩] := by
  intro z
  have onlyAlias : ∀ x y l, z.labels.lookup x = some l → aliasEntry l = some (.ok y) →
      l.records.keys = [typeMF] → targetName x "dk" ∉ z.labels → AliasStep z ["dk", "@"] x y := by
    intro x y l hl points keys absent
    refine ⟨⟨l, hl, points, fun t ne r rs hr => ?_⟩, fun t ht ne => ?_⟩
    · have mem : t ∈ l.records.keys := AList.mem_keys.mp (AList.lookup_isSome.mp (by
        rw [LabelOf.recordsOf] at hr
        simp [hr]))
      rw [keys] at mem
      exact ne (List.mem_singleton.mp mem)
    · rcases List.mem_cons.mp ht with rfl | ht
      · exact absent
      · exact (ne (List.mem_singleton.mp ht)).elim
  have step1 : AliasStep z ["dk", "@"] "ftp" "www" :=
    onlyAlias "ftp" "www" _ rfl rfl rfl (by decide +kernel)
  have step2 : AliasStep z ["dk", "@"] "www" "web" :=
    onlyAlias "www" "web" _ rfl rfl rfl (by decide +kernel)
  obtain ⟨l, hl, found⟩ : ∃ l, z.labels.lookup "web" = some l ∧
      findLabels z ["dk", "@"] [typeMF, typeCNAME, typeA] 1 "web" = .ok [⟨some l, typeA⟩] :=
    ⟨_, rfl, rfl⟩
  obtain ⟨fuel, h⟩ := (alias_transparent (.head step1 (.single step2)) (by decide) (by decide)
    (by decide) found).1 (by simp)
  exact ⟨fuel, l, hl, h⟩

end GeoDNS.Zones
